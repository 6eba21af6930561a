import RbaIdp.Effects.Events

/-!
# What a login decides

The verdict of a login, in its own terms: the application and the tenant it is for
(`Resolves`), the user whose credentials pass (`Passes`), and the action they are answered
with (`Verdict`), which is the enforced one, with an `ALLOW` raised to a step-up for those
who always ask for the passkey.  None of it speaks of how the service computes it; the
lemmas `resolves_iff`, `passes_iff` and `verdict_iff` say that the service computes this.

`DecisionLaw` says that the rows a login writes, and what it hands to the client, follow
from the verdict alone.  A login that would be let in and is sent to a URI that does not
parse breaks it: `append_query` raises, and the session is rolled back.
-/

namespace RbaIdp

open Relational Program

variable {env : Env} {s : Served}

/-! ## The verdict -/

/-- The domain of an address, once it is stripped and in lower case. -/
structure HasDomain (env : Env) (email domain : String) : Prop where
  nonempty : domain ≠ ""
  last : '@' ∉ domain.toList
  split : ∃ localPart, localPart ≠ "" ∧
    env.lib.lower (strip email) = localPart ++ ("@" ++ domain)

/-- What the credentials of a login are checked against. -/
structure Credentials where
  tenantId : String
  applicationId : String
  email : String
  password : String

/-- The tenant of a login resolves: it is that of an enabled application, or the one that
registered the domain of the address and has an enabled console of its own. -/
inductive Resolves (env : Env) (db : Directory) : Request → Credentials → Prop where
  | application {body : LoginRequest} {deviceCookie : Option String} {app : Application}
      (happ : app ∈ db.applications) (hid : app.applicationId = body.applicationId)
      (henabled : app.enabled = true) :
      Resolves env db (.login body deviceCookie)
        ⟨app.tenantId, app.applicationId, body.email, body.password⟩
  | console {body : ConsoleLoginRequest} {deviceCookie : Option String} {row : TenantDomain}
      {tenant : Tenant} {app : Application}
      (hrow : row ∈ db.tenantDomains) (hdomain : HasDomain env body.email row.domain)
      (htenant : tenant ∈ db.tenants) (howner : tenant.tenantId = row.tenantId)
      (hconsole : tenant.consoleApplicationId = some app.applicationId)
      (hnonempty : app.applicationId ≠ "")
      (happ : app ∈ db.applications) (hown : app.tenantId = tenant.tenantId)
      (henabled : app.enabled = true) :
      Resolves env db (.consoleLogin body deviceCookie)
        ⟨tenant.tenantId, app.applicationId, body.email, body.password⟩

/-- The user of the normalised address is enabled, has this password, and holds a role on the
application through a group. -/
structure Passes (env : Env) (db : Directory) (c : Credentials) (user : User) : Prop where
  found : db.users.first? (fun u => u.tenantId == c.tenantId &&
    u.email == env.lib.lower (strip c.email)) = some user
  enabled : user.enabled = true
  password : env.lib.checkpw c.password
    (if user.passwordHash = "" then env.lib.dummyHash else user.passwordHash) = some true
  role : ∃ r ∈ db.roles, r.applicationId = c.applicationId ∧
    ∃ gr ∈ db.groupRoles, gr.roleId = r.roleId ∧
      ∃ m ∈ db.groupMemberships, m.groupId = gr.groupId ∧ m.userId = user.userId

/-- The risk engine is not switched off. -/
def EngineOn (d : Draws) : Prop := ∀ policy, d.policy = some policy → policy.engineMode ≠ .OFF

/-- The action to enforce: the base policy's when the engine is off, the engine's
`enforced_action` when it answers, the configured one when it does not. -/
inductive Enforced (env : Env) (d : Draws) : Action → Prop where
  | engineOff {policy : TenantPolicy} (hpolicy : d.policy = some policy)
      (hoff : policy.engineMode = .OFF) : Enforced env d (env.lib.baseAction policy.basePolicy)
  | answered {decision : RiskEvaluateResponse} (hon : EngineOn d) (hpdp : d.pdp = some decision) :
      Enforced env d decision.enforcedAction
  | unavailableMfa (hon : EngineOn d) (hpdp : d.pdp = none)
      (haction : env.settings.pdpUnavailableAction = .REQUIRE_MFA) : Enforced env d .REQUIRE_MFA
  | unavailableReauth (hon : EngineOn d) (hpdp : d.pdp = none)
      (haction : env.settings.pdpUnavailableAction = .REAUTHENTICATE) :
      Enforced env d .REAUTHENTICATE

/-- The user or the application always asks for the passkey. -/
def AlwaysPasskey (db : Directory) (user : User) (applicationId : String) : Prop :=
  user.alwaysPasskey = some true ∨
    ∃ app ∈ db.applications, app.applicationId = applicationId ∧ app.alwaysPasskey = some true

/-- The enforced action, with an `ALLOW` raised for those who always ask for the passkey. -/
inductive Verdict (env : Env) (d : Draws) (db : Directory) (user : User) (applicationId : String) :
    Action → Prop where
  | allowed (henforced : Enforced env d .ALLOW) (hfree : ¬ AlwaysPasskey db user applicationId) :
      Verdict env d db user applicationId .ALLOW
  | raised (henforced : Enforced env d .ALLOW) (halways : AlwaysPasskey db user applicationId) :
      Verdict env d db user applicationId .REQUIRE_MFA
  | stricter {action : Action} (henforced : Enforced env d action) (hne : action ≠ .ALLOW) :
      Verdict env d db user applicationId action

/-- A passkey, or the one-time code of a test deployment. -/
def HasSecondFactor (env : Env) (db : Artefacts) (userId : String) : Prop :=
  env.settings.mockOtpEnabled = true ∨ ∃ c ∈ db.webauthnCredentials, c.userId = userId

/-- The credentials of a login pass, and this is the action they are answered
with. -/
structure Decides (env : Env) (s : Served) (user : User) (applicationId : String)
    (action : Action) : Prop where
  passes : ∃ c, Resolves env s.before.toDirectory s.request c ∧
    c.applicationId = applicationId ∧ Passes env s.before.toDirectory c user
  verdict : Verdict env s.draws s.before.toDirectory user applicationId action

/-- The URI a login is sent to with its session: the registered one of its application,
unless it asks for another. -/
inductive SentTo (db : Directory) : Request → String → Prop where
  | registered {body : LoginRequest} {deviceCookie : Option String} {app : Application}
      {uri : String} (happ : app ∈ db.applications)
      (hid : app.applicationId = body.applicationId) (huri : app.redirectUri = some uri)
      (hnonempty : uri ≠ "")
      (hasked : body.redirectUri = none ∨ body.redirectUri = some "" ∨
        body.redirectUri = some uri) :
      SentTo db (.login body deviceCookie) uri

/-! ## What the service computes -/

theorem emailDomain_eq {email domain : String} (h : domain ≠ "") :
    emailDomain env email = domain ↔ HasDomain env email domain := by
  constructor
  · intro hdomain
    unfold emailDomain at hdomain
    split at hdomain
    next localPart at? rest hparts =>
      split at hdomain
      · exact absurd hdomain.symm h
      · next hfound =>
        subst hdomain
        simp only [Bool.or_eq_true, Bool.not_eq_true', beq_iff_eq, not_or,
          Bool.not_eq_false] at hfound
        obtain ⟨rfl, hlocal⟩ := hfound
        obtain ⟨hsplit, hlast⟩ := rpartition_eq_true.mp hparts
        exact ⟨h, hlast, localPart, hlocal, hsplit⟩
  · rintro ⟨-, hlast, localPart, hlocal, hsplit⟩
    have hparts : rpartition (env.lib.lower (strip email)) '@' = (localPart, true, domain) :=
      rpartition_eq_true.mpr ⟨hsplit, hlast⟩
    simp [emailDomain, hparts, hlocal]

theorem tenantForOperatorEmail_iff {db : Directory} {email : String} {tenant : Tenant} :
    tenantForOperatorEmail env db email = some tenant ↔
      ∃ row ∈ db.tenantDomains, HasDomain env email row.domain ∧ tenant ∈ db.tenants ∧
        tenant.tenantId = row.tenantId := by
  unfold tenantForOperatorEmail
  by_cases hdomain : emailDomain env email = ""
  · simp only [hdomain, if_true, reduceCtorEq, false_iff, not_exists, not_and]
    intro row _ hhas
    rw [(emailDomain_eq hhas.nonempty).mpr hhas] at hdomain
    exact absurd hdomain hhas.nonempty
  · simp only [hdomain, if_false, Option.bind_eq_some_iff, Table.get_eq_some]
    constructor
    · rintro ⟨row, ⟨hrow, hkey⟩, htenant⟩
      exact ⟨row, hrow, (emailDomain_eq (hkey ▸ hdomain)).mp hkey.symm, htenant⟩
    · rintro ⟨row, hrow, hhas, htenant⟩
      exact ⟨row, ⟨hrow, ((emailDomain_eq hhas.nonempty).mpr hhas).symm⟩, htenant⟩

theorem consoleOf_eq_some {db : Directory} {tenant : Tenant} {console : String} :
    consoleOf db (some tenant) = some console ↔
      tenant.consoleApplicationId = some console ∧ console ≠ "" ∧
        ∃ app ∈ db.applications, app.applicationId = console ∧ app.tenantId = tenant.tenantId ∧
          app.enabled = true := by
  simp only [consoleOf, Option.bind_some, Option.bind_eq_some_iff, Option.filter_eq_some_iff,
    Option.map_eq_some_iff, Table.get_eq_some, Bool.and_eq_true, beq_iff_eq, bne_iff_ne]
  constructor
  · rintro ⟨_, ⟨hconsole, hnonempty⟩, app, ⟨⟨happ, rfl⟩, henabled, hown⟩, rfl⟩
    exact ⟨hconsole, hnonempty, app, happ, rfl, hown, henabled⟩
  · rintro ⟨hconsole, hnonempty, app, happ, rfl, hown, henabled⟩
    exact ⟨_, ⟨hconsole, hnonempty⟩, app, ⟨⟨happ, rfl⟩, henabled, hown⟩, rfl⟩

/-- What an attempt checks its credentials against. -/
def Attempt.credentials (a : Attempt) : Credentials :=
  ⟨a.tenantId, a.applicationId, a.email, a.password⟩

theorem resolves_iff {db : Directory} {request : Request} {c : Credentials} :
    Resolves env db request c ↔ ∃ a, attemptOf env db request = some a ∧ a.credentials = c := by
  constructor
  · rintro (⟨happ, hid, henabled⟩ | ⟨hrow, hdomain, htenant, howner, hconsole, hnonempty, happ,
      hown, henabled⟩)
    · next body deviceCookie app =>
      refine ⟨loginAttempt body deviceCookie app, ?_, ?_⟩
      · simp [attemptOf, ← hid, Table.get_of_mem happ, henabled]
      · simp [Attempt.credentials, loginAttempt, hid]
    · next body deviceCookie row tenant app =>
      refine ⟨consoleAttempt body deviceCookie tenant app.applicationId, ?_, rfl⟩
      have hfound := tenantForOperatorEmail_iff.mpr ⟨row, hrow, hdomain, htenant, howner⟩
      have hopen := consoleOf_eq_some.mpr
        ⟨hconsole, hnonempty, app, happ, rfl, hown, henabled⟩
      simp [attemptOf, hfound, hopen]
  · rintro ⟨a, ha, rfl⟩
    cases request with
    | login body deviceCookie =>
        obtain ⟨app, hfound, rfl⟩ := Option.map_eq_some_iff.mp ha
        obtain ⟨hget, henabled⟩ := Option.filter_eq_some_iff.mp hfound
        have hid := Table.key_of_get hget
        have hresolves : Resolves env db (.login body deviceCookie)
            ⟨app.tenantId, app.applicationId, body.email, body.password⟩ :=
          .application (Table.mem_of_get hget) hid henabled
        rwa [hid] at hresolves
    | consoleLogin body deviceCookie =>
        obtain ⟨tenant, htenant, hrest⟩ := Option.bind_eq_some_iff.mp ha
        obtain ⟨console, hconsole, rfl⟩ := Option.map_eq_some_iff.mp hrest
        obtain ⟨row, hrow, hdomain, htenant, howner⟩ := tenantForOperatorEmail_iff.mp htenant
        obtain ⟨hconsole, hnonempty, app, happ, rfl, hown, henabled⟩ :=
          consoleOf_eq_some.mp hconsole
        exact .console hrow hdomain htenant howner hconsole hnonempty happ hown henabled
    | _ => cases ha

theorem passes_iff {db : Directory} {a : Attempt} {user : User} :
    Passes env db a.credentials user ↔ Admitted env db a user := by
  have hdigest : digestOf env (some user.passwordHash) =
      if user.passwordHash = "" then env.lib.dummyHash else user.passwordHash := rfl
  have hpassword : passwordMatches env a.password (some user.passwordHash) = true ↔
      env.lib.checkpw a.password
        (if user.passwordHash = "" then env.lib.dummyHash else user.passwordHash) = some true := by
    rw [passwordMatches, hdigest, Option.getD_eq_iff]
    simp
  constructor
  · rintro ⟨hfound, henabled, hpass, r, hr, happ, hgrants⟩
    exact ⟨hfound, henabled, hpassword.mpr hpass,
      hasApplicationAccess_iff.mpr ⟨r, hr, happ, holdsRole_iff.mpr hgrants⟩⟩
  · rintro ⟨hfound, henabled, hpass, haccess⟩
    obtain ⟨r, hr, happ, hholds⟩ := hasApplicationAccess_iff.mp haccess
    exact ⟨hfound, henabled, hpassword.mp hpass, r, hr, happ, holdsRole_iff.mp hholds⟩

theorem enforced_iff {d : Draws} {action : Action} :
    Enforced env d action ↔ actionOf env d = action := by
  have hon : EngineOn d ↔ (d.policy.filter fun policy => policy.engineMode == .OFF) = none := by
    simp [EngineOn, Option.filter_eq_none_iff]
  constructor
  · rintro (⟨hpolicy, hoff⟩ | ⟨hengine, hpdp⟩ | ⟨hengine, hpdp, haction⟩ | ⟨hengine, hpdp, haction⟩)
    · next policy =>
      have hfilter : (d.policy.filter fun policy => policy.engineMode == .OFF) = some policy :=
        Option.filter_eq_some_iff.mpr ⟨hpolicy, beq_iff_eq.mpr hoff⟩
      simp only [actionOf, hfilter]
    · simp [actionOf, hon.mp hengine, hpdp]
    · simp [actionOf, hon.mp hengine, hpdp, haction, PdpUnavailableAction.toAction]
    · simp [actionOf, hon.mp hengine, hpdp, haction, PdpUnavailableAction.toAction]
  · rintro rfl
    cases hoff : d.policy.filter fun policy => policy.engineMode == .OFF with
    | some policy =>
        obtain ⟨hpolicy, hmode⟩ := Option.filter_eq_some_iff.mp hoff
        simp only [actionOf, hoff]
        exact .engineOff hpolicy (beq_iff_eq.mp hmode)
    | none =>
        have hengine := hon.mpr hoff
        cases hpdp : d.pdp with
        | some decision =>
            simp only [actionOf, hoff, hpdp]
            exact .answered hengine hpdp
        | none =>
            simp only [actionOf, hoff, hpdp]
            cases haction : env.settings.pdpUnavailableAction with
            | REQUIRE_MFA => exact .unavailableMfa hengine hpdp haction
            | REAUTHENTICATE => exact .unavailableReauth hengine hpdp haction

theorem asksForPasskey_iff {db : Directory} {user : User} {applicationId : String} :
    asksForPasskey db user applicationId = true ↔ AlwaysPasskey db user applicationId := by
  have hset : ∀ column : Option Bool, column.getD false = true ↔ column = some true := by
    rintro (_ | _ | _) <;> simp
  rw [asksForPasskey, Bool.or_eq_true, hset, hset, AlwaysPasskey]
  simp only [Option.bind_eq_some_iff, Table.get_eq_some, and_assoc]

/-- A login is allowed when that is enforced and nobody always asks for the passkey. -/
theorem floor_eq_allow {action : Action} {always : Bool} :
    floor action always = .ALLOW ↔ action = .ALLOW ∧ always = false := by
  unfold floor
  cases always <;> cases action <;> decide

theorem verdict_iff {d : Draws} {db : Directory} {user : User} {applicationId : String}
    {action : Action} :
    Verdict env d db user applicationId action ↔
      floor (actionOf env d) (asksForPasskey db user applicationId) = action := by
  constructor
  · rintro (⟨henforced, hfree⟩ | ⟨henforced, halways⟩ | ⟨henforced, hne⟩)
    · rw [enforced_iff.mp henforced, floor_eq_allow]
      exact ⟨rfl, eq_false_of_ne_true (mt asksForPasskey_iff.mp hfree)⟩
    · rw [enforced_iff.mp henforced, asksForPasskey_iff.mpr halways]
      rfl
    · rw [enforced_iff.mp henforced, floor, if_neg fun h => hne h.2]
  · rintro rfl
    have henforced : Enforced env d (actionOf env d) := enforced_iff.mpr rfl
    by_cases hallow : actionOf env d = .ALLOW
    · rw [hallow] at henforced ⊢
      by_cases halways : AlwaysPasskey db user applicationId
      · rw [asksForPasskey_iff.mpr halways]
        exact .raised henforced halways
      · rw [eq_false_of_ne_true (mt asksForPasskey_iff.mp halways)]
        exact .allowed henforced halways
    · rw [floor, if_neg fun h => hallow h.2]
      exact .stricter henforced hallow

theorem hasSecondFactor_iff {db : Artefacts} {userId : String} :
    HasSecondFactor env db userId ↔ canStepUp env db userId = true := by
  rw [HasSecondFactor, canStepUp, Bool.or_eq_true, Artefacts.hasPasskey_eq_true]

theorem matchRedirectUri_eq_some {registered requested : Option String} {uri : String} :
    matchRedirectUri registered requested = some uri ↔
      registered = some uri ∧ uri ≠ "" ∧
        (requested = none ∨ requested = some "" ∨ requested = some uri) := by
  cases registered with
  | none => simp [matchRedirectUri]
  | some registered =>
      by_cases hblank : registered = ""
      · simp only [matchRedirectUri, hblank, if_true, reduceCtorEq, Option.some.injEq, false_iff]
        rintro ⟨rfl, hnonempty, -⟩
        exact hnonempty rfl
      · cases requested with
        | none =>
            simp only [matchRedirectUri, hblank, if_false, Option.some.injEq, true_or, and_true]
            exact (and_iff_left_of_imp fun hsame => hsame ▸ hblank).symm
        | some requested =>
            simp only [matchRedirectUri, hblank, if_false, Option.ite_none_right_eq_some,
              Option.some.injEq, reduceCtorEq, false_or]
            constructor
            · rintro ⟨hasked, rfl⟩
              exact ⟨rfl, hblank, hasked⟩
            · rintro ⟨rfl, -, hasked⟩
              exact ⟨hasked, rfl⟩

theorem sentTo_iff {db : Directory} {a : Attempt} {request : Request} {uri : String}
    (hattempt : attemptOf env db request = some a) :
    SentTo db request uri ↔
      matchRedirectUri a.registeredRedirect a.requestedRedirect = some uri := by
  cases request with
  | login body deviceCookie =>
      obtain ⟨app, hfound, rfl⟩ := Option.map_eq_some_iff.mp hattempt
      have hget := (Option.filter_eq_some_iff.mp hfound).1
      rw [matchRedirectUri_eq_some]
      constructor
      · rintro ⟨happ, hid, huri, hnonempty, hasked⟩
        have hsame := Table.get_of_mem happ
        rw [hid, hget] at hsame
        obtain rfl := Option.some.inj hsame
        exact ⟨huri, hnonempty, hasked⟩
      · rintro ⟨huri, hnonempty, hasked⟩
        exact .registered (Table.mem_of_get hget) (Table.key_of_get hget) huri hnonempty hasked
  | consoleLogin body deviceCookie =>
      obtain ⟨tenant, -, hrest⟩ := Option.bind_eq_some_iff.mp hattempt
      obtain ⟨console, -, rfl⟩ := Option.map_eq_some_iff.mp hrest
      refine iff_of_false ?_ (by simp [consoleAttempt, matchRedirectUri])
      rintro ⟨⟩
  | _ => cases hattempt

/-! ## The law -/

/-- A step-up is asked for. -/
def Action.IsStepUp (action : Action) : Prop := action = .REQUIRE_MFA ∨ action = .REAUTHENTICATE

/-- The verdict of a login, row by row. -/
structure DecisionLaw (env : Env) (s : Served) : Prop where
  session : ∀ userId applicationId,
    (∃ r, .artefact (.insertSession r) ∈ s.writes env ∧ r.userId = userId ∧
      r.applicationId = applicationId) ↔
    ∃ user, user.userId = userId ∧ Decides env s user applicationId .ALLOW
  challenge : ∀ userId applicationId,
    (∃ c, .artefact (.insertChallenge c) ∈ s.writes env ∧ c.consumedAt = none ∧
      c.userId = userId ∧ c.applicationId = applicationId) ↔
    ∃ user action, user.userId = userId ∧ Decides env s user applicationId action ∧
      action.IsStepUp ∧ HasSecondFactor env s.before.toArtefacts userId
  denied : ∀ userId applicationId,
    (∃ c, .artefact (.insertChallenge c) ∈ s.writes env ∧ c.consumedAt.isSome ∧
      c.userId = userId ∧ c.applicationId = applicationId) ↔
    ∃ user action, user.userId = userId ∧ Decides env s user applicationId action ∧
      action.IsStepUp ∧ ¬ HasSecondFactor env s.before.toArtefacts userId
  nothing : (∀ user applicationId action, Decides env s user applicationId action →
    action = .BLOCK) → s.writes env = []
  handed : ∀ response, s.answer env = .ok (.login response) →
    (response.session.isSome ↔ ∃ user applicationId, Decides env s user applicationId .ALLOW) ∧
    (response.challengeId.isSome ↔ ∃ user applicationId action,
      Decides env s user applicationId action ∧ action.IsStepUp ∧
        HasSecondFactor env s.before.toArtefacts user.userId)

theorem Action.IsStepUp.ne {action : Action} (h : action.IsStepUp) :
    action ≠ .ALLOW ∧ action ≠ .BLOCK := by
  rcases h with rfl | rfl <;> simp

/-- The verdict on an attempt. -/
theorem decides_iff_attempt {user : User} {applicationId : String} {action : Action} :
    Decides env s user applicationId action ↔
      ∃ a, attemptOf env s.before.toDirectory s.request = some a ∧
        a.applicationId = applicationId ∧ Admitted env s.before.toDirectory a user ∧
        enforcedAction env s.draws s.before.toDirectory a user = action := by
  constructor
  · rintro ⟨⟨_, hresolves, rfl, hpasses⟩, hverdict⟩
    obtain ⟨a, ha, rfl⟩ := resolves_iff.mp hresolves
    exact ⟨a, ha, rfl, passes_iff.mp hpasses, verdict_iff.mp hverdict⟩
  · rintro ⟨a, ha, rfl, hadmitted, haction⟩
    exact ⟨⟨a.credentials, resolves_iff.mpr ⟨a, ha, rfl⟩, rfl, passes_iff.mpr hadmitted⟩,
      verdict_iff.mpr haction⟩

/-- A login decides one thing. -/
theorem decides_iff {a : Attempt} {user : User} {action : Action}
    (hattempt : attemptOf env s.before.toDirectory s.request = some a)
    (hadmitted : Admitted env s.before.toDirectory a user)
    (haction : enforcedAction env s.draws s.before.toDirectory a user = action)
    (user' : User) (applicationId : String) (action' : Action) :
    Decides env s user' applicationId action' ↔
      user = user' ∧ a.applicationId = applicationId ∧ action = action' := by
  rw [decides_iff_attempt]
  constructor
  · rintro ⟨_, hattempt', rfl, hadmitted', rfl⟩
    obtain rfl := Option.some.inj (hattempt.symm.trans hattempt')
    obtain rfl := Option.some.inj (hadmitted.found.symm.trans hadmitted'.found)
    exact ⟨rfl, rfl, haction.symm⟩
  · rintro ⟨rfl, rfl, rfl⟩
    exact ⟨a, hattempt, rfl, hadmitted, haction⟩

theorem not_decides (hnot : ∀ a, attemptOf env s.before.toDirectory s.request = some a →
      ∀ user, ¬ Admitted env s.before.toDirectory a user)
    {user : User} {applicationId : String} {action : Action} :
    ¬ Decides env s user applicationId action := by
  rw [decides_iff_attempt]
  rintro ⟨a, hattempt, -, hadmitted, -⟩
  exact hnot a hattempt user hadmitted

/-- How a login ends whose secrets are fresh: with an answer, or with nothing written, because
its application is unknown or because it would be sent to a URI that does not parse. -/
inductive Served.LoginEnds (env : Env) (s : Served) : Prop where
  | answered {response : LoginResponse} (hanswer : s.answer env = .ok (.login response))
      (heffect : LoginEffect env s.draws s.before (attemptOf env s.before.toDirectory s.request)
        response (s.writes env))
  | unknown (hattempt : attemptOf env s.before.toDirectory s.request = none)
      (hwrites : s.writes env = []) (hraised : ∀ a, s.answer env ≠ .ok a)
  | stranded {a : Attempt} {user : User} {uri : String}
      (hattempt : attemptOf env s.before.toDirectory s.request = some a)
      (hstranded : Stranded env s.draws s.before.toDirectory a user uri)
      (hwrites : s.writes env = [])

theorem Served.loginEnds (hlogin : s.request.isLogin = true)
    (hfresh : ¬ Collision env s.draws s.before.toArtefacts) : s.LoginEnds env := by
  have hserve : (serve env s.draws s.request).wp
      (fun a t' => ∃ response, a = .login response ∧ LoginEffect env s.draws s.before
        (attemptOf env s.before.toDirectory s.request) response t'.writes)
      (fun t' => (attemptOf env s.before.toDirectory s.request = none ∨
        ∃ a, attemptOf env s.before.toDirectory s.request = some a ∧
          LoginFails env s.draws s.before a) ∧ t'.writes = [])
      ⟨s.before, [], []⟩ := by
    obtain ⟨db, request, d⟩ := s
    cases request with
    | login body deviceCookie =>
        refine wp_answer (wp_login (fun response ws t' heffect hwrites => ?_)
          fun hfails t' hwrites => ⟨hfails, hwrites⟩)
        rw [hwrites]
        exact ⟨response, rfl, heffect⟩
    | consoleLogin body deviceCookie =>
        refine wp_answer (wp_consoleLogin (fun response ws t' heffect hwrites => ?_)
          fun hfails t' hwrites => ⟨Or.inr hfails, hwrites⟩)
        rw [hwrites]
        exact ⟨response, rfl, heffect⟩
    | _ => cases hlogin
  cases hanswer : s.answer env with
  | ok a =>
      obtain ⟨response, rfl, heffect⟩ := wp_of_ok hserve (Prod.ext hanswer rfl)
      exact .answered hanswer heffect
  | error e =>
      obtain ⟨hnone | ⟨a, ha, hfails⟩, hwrites⟩ := wp_of_error hserve (Prod.ext hanswer rfl)
      · exact .unknown hnone hwrites (by simp [hanswer])
      · obtain ⟨user, uri, hstranded⟩ := hfails.resolve_left hfresh
        exact .stranded ha hstranded hwrites

theorem decisionLaw_of_effect {attempt : Option Attempt} {response : LoginResponse}
    {ws : List Write} (hattempt : attemptOf env s.before.toDirectory s.request = attempt)
    (hwrites : s.writes env = ws) (hanswer : s.answer env = .ok (.login response))
    (heffect : LoginEffect env s.draws s.before attempt response ws) : DecisionLaw env s := by
  cases heffect with
  | refused hnot hrefused =>
      have hnone : ∀ user applicationId action, ¬ Decides env s user applicationId action :=
        fun _ _ _ => not_decides (by rw [hattempt]; exact hnot)
      rcases hrefused with rfl | ⟨_, rfl⟩ <;>
        exact ⟨by simp [hwrites, hnone], by simp [hwrites, hnone], by simp [hwrites, hnone],
          fun _ => hwrites, by simp [hanswer, hnone]⟩
  | allowed hsome hadmitted haction =>
      have honly := decides_iff (hattempt.trans hsome) hadmitted haction
      have hnot : ¬ Action.ALLOW.IsStepUp := fun h => h.ne.1 rfl
      constructor
      case session => simp [hwrites, honly, sessionWrites, sessionRow]
      case challenge | denied => simp [hwrites, honly, sessionWrites, hnot]
      case nothing => simp [honly]
      case handed => simp [hanswer, honly, enforcedResponse, hnot]
  | challenged hsome hadmitted haction hstep hfactor
  | denied hsome hadmitted haction hstep hfactor =>
      have honly := decides_iff (hattempt.trans hsome) hadmitted haction
      have hstep : Action.IsStepUp _ := hstep
      constructor
      case session => simp [hwrites, honly, hstep.ne]
      case challenge => simp [hwrites, honly, challengeRow, hstep, hasSecondFactor_iff, hfactor]
      case denied => simp [hwrites, honly, challengeRow, hstep, hasSecondFactor_iff, hfactor]
      case nothing => simp [honly, hstep.ne]
      case handed =>
        simp [hanswer, honly, enforcedResponse, hstep, hstep.ne, hasSecondFactor_iff, hfactor]
  | blocked hsome hadmitted haction =>
      have honly := decides_iff (hattempt.trans hsome) hadmitted haction
      have hnot : ¬ Action.BLOCK.IsStepUp := fun h => h.ne.2 rfl
      constructor
      case session | challenge | denied => simp [hwrites, honly, hnot]
      case nothing => exact fun _ => hwrites
      case handed => simp [hanswer, honly, enforcedResponse, hnot]

/-- A login that answers and is let in is sent to a URI that parses. -/
theorem parses_of_effect {attempt : Option Attempt} {response : LoginResponse} {ws : List Write}
    {user : User} {applicationId uri : String}
    (hattempt : attemptOf env s.before.toDirectory s.request = attempt)
    (heffect : LoginEffect env s.draws s.before attempt response ws)
    (hdecides : Decides env s user applicationId .ALLOW)
    (hsent : SentTo s.before.toDirectory s.request uri) : Parses env.lib.urlRules uri := by
  cases heffect with
  | refused hnot => exact absurd hdecides (not_decides (by rw [hattempt]; exact hnot))
  | allowed hsome _ _ hparses =>
      exact hparses uri ((sentTo_iff (hattempt.trans hsome)).mp hsent)
  | challenged hsome hadmitted haction hstep | denied hsome hadmitted haction hstep =>
      have hdecided :=
        decides_iff (hattempt.trans hsome) hadmitted haction user applicationId .ALLOW
      have hallow := (hdecided.mp hdecides).2.2
      rcases hstep with rfl | rfl <;> cases hallow
  | blocked hsome hadmitted haction =>
      have hdecided :=
        decides_iff (hattempt.trans hsome) hadmitted haction user applicationId .ALLOW
      cases (hdecided.mp hdecides).2.2

/-- **A login decides exactly what is enforced, unless it is sent to a URI that does not
parse.**  For every state, request, policy and risk engine, a login whose secrets are fresh
creates a session exactly if the credentials pass and the verdict is `ALLOW`, an open
challenge exactly if they pass, the verdict is a step-up and the user has a second factor, a
denied one exactly if they have none, and nothing otherwise: all of it exactly when the URI
that a login with verdict `ALLOW` is sent to, if there is one, parses. -/
theorem login_decides_iff (hlogin : s.request.isLogin = true)
    (hfresh : ¬ Collision env s.draws s.before.toArtefacts) :
    DecisionLaw env s ↔ ∀ user applicationId, Decides env s user applicationId .ALLOW →
      ∀ uri, SentTo s.before.toDirectory s.request uri → Parses env.lib.urlRules uri := by
  cases Served.loginEnds hlogin hfresh with
  | answered hanswer heffect =>
      exact iff_of_true (decisionLaw_of_effect rfl rfl hanswer heffect)
        fun _ _ hdecides _ hsent => parses_of_effect rfl heffect hdecides hsent
  | unknown hattempt hwrites hraised =>
      have hnot : ∀ {user applicationId action}, ¬ Decides env s user applicationId action :=
        not_decides (by simp [hattempt])
      exact iff_of_true ⟨by simp [hwrites, hnot], by simp [hwrites, hnot],
        by simp [hwrites, hnot], fun _ => hwrites, fun response h => absurd h (hraised _)⟩
        fun _ _ hdecides => absurd hdecides hnot
  | @stranded a user uri hattempt hstranded hwrites =>
      have hdecides : Decides env s user a.applicationId .ALLOW :=
        (decides_iff hattempt hstranded.admitted hstranded.action _ _ _).mpr ⟨rfl, rfl, rfl⟩
      refine iff_of_false (fun hlaw => ?_) fun hparses => ?_
      · -- the law asks for a session that was rolled back
        obtain ⟨r, hmem, -⟩ := (hlaw.session _ _).mpr ⟨user, rfl, hdecides⟩
        simp [hwrites] at hmem
      · exact hstranded.unparsable
          (hparses user _ hdecides uri ((sentTo_iff hattempt).mpr hstranded.sentTo))

/-- Ana is let in: her portal is called back at a URI that parses. -/
theorem login_decides_iff_ana : DecisionLaw .standIn anaFirst ∧
    ∃ user, user.userId = "usr_ana" ∧ Decides .standIn anaFirst user "portal" .ALLOW := by
  have hfresh : ¬ Collision .standIn (.usual 1) Db.standIn.toArtefacts := by
    rintro (h | h | h) <;> cases h
  have hlaw : DecisionLaw .standIn anaFirst := by
    refine (login_decides_iff rfl hfresh).mpr fun _ _ _ uri hsent => ?_
    have hattempt : attemptOf .standIn anaFirst.before.toDirectory anaFirst.request = some _ := rfl
    cases (sentTo_iff hattempt).mp hsent
    decide +kernel
  refine ⟨hlaw, (hlaw.session _ _).mp ?_⟩
  have hevaluated : (anaFirst.writes .standIn).any (fun w => match w with
      | .artefact (.insertSession r) => r == sessionRow .standIn (.usual 1) "usr_ana" "portal" true
      | _ => false) = true := by decide +kernel
  obtain ⟨w, hmem, hw⟩ := List.any_eq_true.mp hevaluated
  split at hw
  · next r =>
      obtain rfl := beq_iff_eq.mp hw
      exact ⟨_, hmem, rfl, rfl⟩
  · cases hw

/-- Ana's login to a portal that is registered with a stray bracket. -/
def anaStranded : Served where
  before := { Db.standIn with
    toDirectory := (DirectoryWrite.setApplicationRedirectUri "portal"
      (some "https://portal]")).effect Directory.standIn }
  request := anaLogsIn
  draws := .usual 1

/-- She passes, and is answered with an error and no session. -/
theorem not_login_decides : ¬ ∀ (env : Env) (s : Served), s.request.isLogin = true →
    ¬ Collision env s.draws s.before.toArtefacts → DecisionLaw env s := by
  intro h
  have hfresh : ¬ Collision .standIn anaStranded.draws anaStranded.before.toArtefacts := by
    rintro (h | h | h) <;> cases h
  have hlaw := h .standIn anaStranded rfl hfresh
  have hadmitted : ∃ user, Decides .standIn anaStranded user "portal" .ALLOW := by
    refine ⟨_, decides_iff_attempt.mpr ⟨_, rfl, rfl, ⟨rfl, rfl, ?_, ?_⟩, ?_⟩⟩ <;> decide +kernel
  obtain ⟨user, hdecides⟩ := hadmitted
  obtain ⟨r, hmem, -⟩ := (hlaw.session _ _).mpr ⟨user, rfl, hdecides⟩
  have hwrites : (anaStranded.writes .standIn).isEmpty = true := by decide +kernel
  rw [List.isEmpty_iff.mp hwrites] at hmem
  cases hmem

end RbaIdp
