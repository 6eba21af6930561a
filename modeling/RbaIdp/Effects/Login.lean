import RbaIdp.Requests

/-!
# What a login writes

A login that answers has written one of a few lists of statements, each under
conditions on the state it read; a login that raises has written nothing.  The
cases of `LoginEffect` are told apart by conditions that exclude each other, so
it also says when each of them is the one that happens.  Facts about runs are
derived from this and from what the statements do, never by unfolding the
service again.
-/

namespace RbaIdp

open Relational Program

variable (env : Env) (d : Draws)

/-! ## The rows sign-in adds -/

def sessionRow (userId applicationId : String) (mayEnroll : Bool) : IdpSession where
  tokenHash := hashSessionToken env d.token
  userId := userId
  applicationId := applicationId
  expiresAt := d.now + seconds env.settings.sessionTtlSeconds
  enrollUntil := if mayEnroll then some (d.now + seconds env.settings.enrollWindowSeconds) else none
  webauthnChallenge := none

def authCodeRow (userId applicationId target : String) : AuthCode where
  codeHash := hashSessionToken env d.code
  sessionHash := hashSessionToken env d.token
  userId := userId
  applicationId := applicationId
  redirectUri := target
  expiresAt := d.later + seconds env.settings.callbackTtlSeconds
  consumedAt := none

/-- The statements that create a session, with a callback code when there is a
URI to call back. -/
def sessionWrites (userId applicationId : String) (mayEnroll : Bool) (target : Option String) :
    List Write :=
  [.directory (.setUserLastLogin userId d.now),
    .artefact (.insertSession (sessionRow env d userId applicationId mayEnroll))] ++
    (target.map fun target =>
      .artefact (.insertAuthCode (authCodeRow env d userId applicationId target))).toList

/-- Some secret or id this request drew is already in a table. -/
def Collision (db : Artefacts) : Prop :=
  (db.sessions.get (hashSessionToken env d.token)).isSome ∨
    (db.authCodes.get (hashSessionToken env d.code)).isSome ∨
    (db.mfaChallenges.get d.challengeId).isSome

variable {env d}

theorem wp_persistSession {userId applicationId : String} {mayEnroll : Bool}
    {Q : SessionToken → World → Prop} {E : World → Prop} {t : World}
    (hok : ∀ t' : World, t'.calls = t.calls →
      t'.writes = t.writes ++ sessionWrites env d userId applicationId mayEnroll none →
      t'.db.authCodes = t.db.authCodes → t'.db.applications = t.db.applications →
      (t.db.users.get userId).isSome →
      Q ⟨d.token, d.now + seconds env.settings.sessionTtlSeconds⟩ t')
    (herror : t.db.users.get userId = none ∨
        (t.db.sessions.get (hashSessionToken env d.token)).isSome →
      ∀ t' : World, t'.calls = t.calls → E t') :
    (persistSession env d userId applicationId mayEnroll).wp Q E t := by
  simp only [persistSession, onDirectory, onArtefacts, wp_bind, wp_read, wp_ifSome, wp_execute,
    wp_pure]
  refine ⟨fun hnone => ⟨fun _ => herror (Or.inl hnone) _ rfl, fun haccepted => ?_⟩,
    fun user huser => ⟨fun hviolates => ?_, fun _ => ⟨fun hviolates => ?_, fun _ => ?_⟩⟩⟩
  · -- without a user the session's foreign key is refused
    simp [ArtefactWrite.violates, hnone] at haccepted
  · simp [DirectoryWrite.violates, huser] at hviolates
  · refine herror (Or.inr ?_) _ rfl
    simpa [ArtefactWrite.violates, DirectoryWrite.effect, Directory.updateUser, huser] using
      hviolates
  · refine hok _ rfl ?_ rfl rfl (by simp [huser])
    simp [sessionWrites, sessionRow]

theorem wp_persistCallback {userId applicationId : String} {requested registered : Option String}
    {Q : Option Callback → World → Prop} {E : World → Prop} {t : World}
    (hok : ∀ t' : World, t'.calls = t.calls →
      t'.writes = t.writes ++ (((matchRedirectUri registered requested).map fun target =>
        Write.artefact (.insertAuthCode (authCodeRow env d userId applicationId target))).toList) →
      t'.db.applications = t.db.applications →
      (∀ target ∈ matchRedirectUri registered requested, Parses env.lib.urlRules target) →
      Q ((matchRedirectUri registered requested).map fun target => ⟨target, d.code⟩) t')
    (herror : (t.db.authCodes.get (hashSessionToken env d.code)).isSome ∨
        (∃ target ∈ matchRedirectUri registered requested, ¬ Parses env.lib.urlRules target) →
      ∀ t' : World, t'.calls = t.calls → E t') :
    (persistCallback env d userId applicationId (hashSessionToken env d.token) requested
      registered).wp Q E t := by
  unfold persistCallback
  cases htarget : matchRedirectUri registered requested with
  | none =>
      have hdone := hok t rfl (by simp [htarget]) rfl (by simp [htarget])
      simpa [htarget] using hdone
  | some target =>
      simp only [onArtefacts, wp_bind, wp_execute, wp_raiseIf, wp_pure, isNone_url, not_not]
      refine ⟨fun hviolates => herror (Or.inl (by simpa [ArtefactWrite.violates] using hviolates)) _
        rfl, fun _ => ⟨fun hparses => ?_, fun hparses => ?_⟩⟩
      · exact herror (Or.inr ⟨target, htarget, hparses⟩) _ rfl
      · have hdone := hok (t.exec (.artefact (.insertAuthCode (authCodeRow env d userId
          applicationId target)))) rfl (by simp [htarget]) rfl (by simpa [htarget] using hparses)
        simpa [htarget, authCodeRow] using hdone

/-- Creating a session and, where there is a URI to call back, a code for it. -/
theorem wp_mint {α : Type} {userId applicationId : String} {requested registered : Option String}
    {mayEnroll : Bool} {f : SessionToken → Option Callback → App α}
    {Q : α → World → Prop} {E : World → Prop} {t : World}
    (hok : ∀ t' : World, t'.calls = t.calls →
      t'.writes = t.writes ++ sessionWrites env d userId applicationId mayEnroll
        (matchRedirectUri registered requested) →
      t'.db.applications = t.db.applications → (t.db.users.get userId).isSome →
      (∀ target ∈ matchRedirectUri registered requested, Parses env.lib.urlRules target) →
      (f ⟨d.token, d.now + seconds env.settings.sessionTtlSeconds⟩
        ((matchRedirectUri registered requested).map fun target => ⟨target, d.code⟩)).wp Q E t')
    (herror : t.db.users.get userId = none ∨
        (t.db.sessions.get (hashSessionToken env d.token)).isSome ∨
        (t.db.authCodes.get (hashSessionToken env d.code)).isSome ∨
        (∃ target ∈ matchRedirectUri registered requested, ¬ Parses env.lib.urlRules target) →
      ∀ t' : World, t'.calls = t.calls → E t') :
    (persistSession env d userId applicationId mayEnroll >>= fun token =>
      persistCallback env d userId applicationId (hashSessionToken env token.token) requested
        registered >>= fun redirectTo => f token redirectTo).wp Q E t := by
  rw [wp_bind]
  refine wp_persistSession (fun t₁ hcalls hwrites hcodes happs huser => ?_) fun h => ?_
  · rw [wp_bind]
    refine wp_persistCallback (fun t₂ hcalls₂ hwrites₂ happs₂ hparses => ?_)
      fun hfails t' hcalls' => ?_
    · refine hok t₂ (hcalls₂.trans hcalls) ?_ (happs₂.trans happs) huser hparses
      rw [hwrites₂, hwrites]
      simp [sessionWrites]
    · rw [hcodes] at hfails
      exact herror (Or.inr (Or.inr hfails)) t' (hcalls'.trans hcalls)
  · rcases h with hnone | htaken
    · exact herror (Or.inl hnone)
    · exact herror (Or.inr (Or.inl htaken))

/-! ## The two doors -/

variable (env d)

/-- The attempt a login makes, when its door leads to an application. -/
def attemptOf (db : Directory) : Request → Option Attempt
  | .login body deviceCookie =>
      ((db.applications.get body.applicationId).filter Application.enabled).map
        (loginAttempt body deviceCookie)
  | .consoleLogin body deviceCookie =>
      (tenantForOperatorEmail env db body.email).bind fun tenant =>
        (consoleOf db (some tenant)).map (consoleAttempt body deviceCookie tenant)
  | _ => none

/-- The credentials of an attempt pass, for a user. -/
structure Admitted (db : Directory) (attempt : Attempt) (user : User) : Prop where
  found : userByEmail env db attempt.tenantId attempt.email = some user
  enabled : user.enabled = true
  password : passwordMatches env attempt.password (some user.passwordHash) = true
  access : hasApplicationAccess db user.userId attempt.applicationId = true

/-- The decision of a login: none when the engine is off, else the engine's or
the one that stands in for it. -/
def decisionOf : Option RiskEvaluateResponse :=
  if engineOff d.policy then none
  else some (d.pdp.getD
    (degradedDecision env d ((d.policy.map TenantPolicy.engineMode).getD .ACTIVE)))

/-- The action of a login before the floor: the base policy's when the engine is
off, the engine's `enforced_action` when it answers, and the configured one when
it does not. -/
def actionOf : Action :=
  match d.policy.filter fun policy => policy.engineMode == .OFF with
  | some policy => env.lib.baseAction policy.basePolicy
  | none =>
      match d.pdp with
      | some decision => decision.enforcedAction
      | none => env.settings.pdpUnavailableAction.toAction

/-- The action a login of the user is answered with. -/
def enforcedAction (db : Directory) (attempt : Attempt) (user : User) : Action :=
  floor (actionOf env d) (asksForPasskey db user attempt.applicationId)

/-- Does an allowed login offer to enroll a passkey? -/
def offersPasskey (db : Artefacts) (userId : String) : Bool :=
  judgedUsual (decisionOf env d) && !db.hasPasskey userId

def canStepUp (db : Artefacts) (userId : String) : Bool :=
  env.settings.mockOtpEnabled || db.hasPasskey userId

/-- A login that would be let in, but is sent to a URI that does not parse. -/
structure Stranded (db : Directory) (attempt : Attempt) (user : User) (target : String) :
    Prop where
  admitted : Admitted env db attempt user
  action : enforcedAction env d db attempt user = .ALLOW
  sentTo : matchRedirectUri attempt.registeredRedirect attempt.requestedRedirect = some target
  unparsable : ¬ Parses env.lib.urlRules target

/-- Why a login writes nothing and raises. -/
def LoginFails (db : Db) (attempt : Attempt) : Prop :=
  Collision env d db.toArtefacts ∨
    ∃ user target, Stranded env d db.toDirectory attempt user target

/-- What a login that answers writes. -/
inductive LoginEffect (db : Db) (attempt : Option Attempt) : LoginResponse → List Write → Prop where
  | refused {response : LoginResponse}
      (hnot : ∀ a, attempt = some a → ∀ user, ¬ Admitted env db.toDirectory a user)
      (hresponse : response = { outcome := .INVALID_CREDENTIALS } ∨
        ∃ userId, response =
          { outcome := .ACCESS_DENIED
            userId := some userId
            detail := some ACCESS_DENIED_DETAIL }) :
      LoginEffect db attempt response []
  | allowed {a : Attempt} {user : User} (hattempt : attempt = some a)
      (hadmitted : Admitted env db.toDirectory a user)
      (haction : enforcedAction env d db.toDirectory a user = .ALLOW)
      (hparses : ∀ target ∈ matchRedirectUri a.registeredRedirect a.requestedRedirect,
        Parses env.lib.urlRules target) :
      LoginEffect db attempt
        { enforcedResponse env user.userId .ALLOW (decisionOf env d) with
          session := some ⟨d.token, d.now + seconds env.settings.sessionTtlSeconds⟩
          redirectTo := (matchRedirectUri a.registeredRedirect a.requestedRedirect).map
            fun target => ⟨target, d.code⟩
          passkeyOffer := offersPasskey env d db.toArtefacts user.userId }
        (sessionWrites env d user.userId a.applicationId
          (offersPasskey env d db.toArtefacts user.userId)
          (matchRedirectUri a.registeredRedirect a.requestedRedirect))
  | challenged {a : Attempt} {user : User} {action : Action} (hattempt : attempt = some a)
      (hadmitted : Admitted env db.toDirectory a user)
      (haction : enforcedAction env d db.toDirectory a user = action)
      (hstep : action = .REQUIRE_MFA ∨ action = .REAUTHENTICATE)
      (hfactor : canStepUp env db.toArtefacts user.userId = true) :
      LoginEffect db attempt
        { enforcedResponse env user.userId action (decisionOf env d) with
          challengeId := some d.challengeId
          unusual := match decisionOf env d with
            | none => false
            | some decision => !decision.fallback && decision.action != .ALLOW }
        [.artefact (.insertChallenge
          (challengeRow env d user.userId a.applicationId action (decisionOf env d) none))]
  | denied {a : Attempt} {user : User} {action : Action} (hattempt : attempt = some a)
      (hadmitted : Admitted env db.toDirectory a user)
      (haction : enforcedAction env d db.toDirectory a user = action)
      (hstep : action = .REQUIRE_MFA ∨ action = .REAUTHENTICATE)
      (hfactor : canStepUp env db.toArtefacts user.userId = false) :
      LoginEffect db attempt
        { outcome := .SECOND_FACTOR_MISSING
          userId := some user.userId
          eventId := (decisionOf env d).map RiskEvaluateResponse.eventId
          action := some action }
        [.artefact (.insertChallenge
          (challengeRow env d user.userId a.applicationId action (decisionOf env d)
            (some "no_second_factor")))]
  | blocked {a : Attempt} {user : User} (hattempt : attempt = some a)
      (hadmitted : Admitted env db.toDirectory a user)
      (haction : enforcedAction env d db.toDirectory a user = .BLOCK) :
      LoginEffect db attempt (enforcedResponse env user.userId .BLOCK (decisionOf env d)) []

variable {env d}

theorem Admitted.get_user {db : Directory} {attempt : Attempt} {user : User}
    (h : Admitted env db attempt user) :
    db.users.get user.userId = some user ∧ user.tenantId = attempt.tenantId := by
  obtain ⟨hmem, hkey⟩ := Table.first?_eq_some h.found
  simp only [Bool.and_eq_true, beq_iff_eq] at hkey
  exact ⟨Table.get_of_mem hmem, hkey.1⟩

/-- A state and its record carry over: nothing was written in between. -/
structure Unwritten (t t' : World) : Prop where
  db : t'.db = t.db
  writes : t'.writes = t.writes

theorem wp_checkCredentials {attempt : Attempt} {Q : Checked → World → Prop} {E : World → Prop}
    {t : World}
    (hanswered : ∀ response t', Unwritten t t' →
      (∀ user, ¬ Admitted env t.db.toDirectory attempt user) →
      (response = { outcome := .INVALID_CREDENTIALS } ∨ ∃ userId, response =
        { outcome := .ACCESS_DENIED, userId := some userId, detail := some ACCESS_DENIED_DETAIL }) →
      Q (.answered response) t')
    (hwrong : ∀ userId t', Unwritten t t' →
      (∀ user, ¬ Admitted env t.db.toDirectory attempt user) → Q (.wrongPassword userId) t')
    (hpassed : ∀ user t', Unwritten t t' → Admitted env t.db.toDirectory attempt user →
      Q (.passed user.userId (asksForPasskey t.db.toDirectory user attempt.applicationId)) t') :
    (checkCredentials env attempt).wp Q E t := by
  simp only [checkCredentials, wp_transaction, wp_bind, wp_read]
  cases hfound : (userByEmail env t.db.toDirectory attempt.tenantId attempt.email).filter
      User.enabled with
  | none =>
      simp only [verifyPassword, wp_bind, wp_call, wp_pure]
      refine hanswered _ _ ⟨rfl, rfl⟩ (fun user hadmitted => ?_) (Or.inl rfl)
      simp [hadmitted.found, hadmitted.enabled] at hfound
  | some user =>
      obtain ⟨huser, henabled⟩ := Option.filter_eq_some_iff.mp hfound
      have honly : ∀ u, Admitted env t.db.toDirectory attempt u → u = user := by
        intro u hu
        rw [hu.found] at huser
        exact Option.some.inj huser
      simp only [verifyPassword, wp_bind, wp_call, wp_pure, wp_ite, wp_read]
      refine ⟨fun hmatched => ⟨fun haccess => ?_, fun hno => ⟨fun _ => ?_, fun _ => ?_⟩⟩,
        fun hno => ?_⟩
      · exact hpassed user _ ⟨rfl, rfl⟩ ⟨huser, henabled, hmatched, haccess⟩
      · refine hanswered _ _ ⟨rfl, rfl⟩ (fun u hu => hno ?_) (Or.inl rfl)
        exact honly u hu ▸ hu.access
      · refine hanswered _ _ ⟨rfl, rfl⟩ (fun u hu => hno ?_) (Or.inr ⟨_, rfl⟩)
        exact honly u hu ▸ hu.access
      · refine hwrong _ _ ⟨rfl, rfl⟩ fun u hu => hno ?_
        exact honly u hu ▸ hu.password

theorem wp_hasPasskey {userId : String} {Q : Bool → World → Prop} {E : World → Prop} {t : World} :
    (hasPasskey userId).wp Q E t ↔ Q (t.db.hasPasskey userId) t := by
  simp [hasPasskey]

theorem wp_passkeyOffer {userId : String} {Q : Bool → World → Prop} {E : World → Prop}
    {t : World} :
    (passkeyOffer userId (decisionOf env d)).wp Q E t ↔
      Q (offersPasskey env d t.db.toArtefacts userId) t := by
  unfold passkeyOffer offersPasskey
  cases judgedUsual (decisionOf env d) <;> simp [wp_hasPasskey]

theorem wp_hasSecondFactor {userId : String} {Q : Bool → World → Prop} {E : World → Prop}
    {t : World} :
    (hasSecondFactor env userId).wp Q E t ↔ Q (canStepUp env t.db.toArtefacts userId) t := by
  unfold hasSecondFactor canStepUp
  cases env.settings.mockOtpEnabled <;> simp [wp_hasPasskey]

theorem wp_createChallenge {userId applicationId : String} {action : Action}
    {decision : Option RiskEvaluateResponse} {deniedReason : Option String}
    {Q : String → World → Prop} {E : World → Prop} {t : World}
    (huser : (t.db.users.get userId).isSome)
    (hok : ∀ t' : World, t'.writes = t.writes ++ [.artefact (.insertChallenge
      (challengeRow env d userId applicationId action decision deniedReason))] → Q d.challengeId t')
    (herror : (t.db.mfaChallenges.get d.challengeId).isSome →
      ∀ t' : World, t'.writes = t.writes → E t') :
    (createChallenge env d userId applicationId action decision deniedReason).wp Q E t := by
  simp only [createChallenge, onArtefacts, wp_bind, wp_transaction, wp_execute, wp_pure]
  refine ⟨fun hviolates => herror ?_ _ rfl, fun _ => hok _ rfl⟩
  have hexists : t.db.users.get userId ≠ none := fun hnone => by simp [hnone] at huser
  simpa [ArtefactWrite.violates, challengeRow, hexists] using hviolates

theorem wp_enforce {attempt : Attempt} {user : User} {action : Action} {db : Db}
    {Q : LoginResponse → World → Prop} {E : World → Prop} {t : World} (hdb : t.db = db)
    (hadmitted : Admitted env db.toDirectory attempt user)
    (haction : enforcedAction env d db.toDirectory attempt user = action)
    (hok : ∀ response ws t', LoginEffect env d db (some attempt) response ws →
      t'.writes = t.writes ++ ws → Q response t')
    (herror : LoginFails env d db attempt → ∀ t' : World, t'.writes = t.writes → E t') :
    (enforce env d user.userId attempt action (decisionOf env d)).wp Q E t := by
  subst hdb
  have huser := hadmitted.get_user.1
  have hstepUp : ∀ step : Action, step = .REQUIRE_MFA ∨ step = .REAUTHENTICATE →
      enforcedAction env d t.db.toDirectory attempt user = step →
      (enforce env d user.userId attempt step (decisionOf env d)).wp Q E t := by
    intro step hstep hstepAction
    have hcollides : (t.db.mfaChallenges.get d.challengeId).isSome →
        ∀ t' : World, t'.writes = t.writes → E t' := fun htaken =>
      herror (Or.inl (Or.inr (Or.inr htaken)))
    rcases hstep with rfl | rfl <;>
    · simp only [enforce, wp_bind, wp_hasSecondFactor]
      cases hfactor : canStepUp env t.db.toArtefacts user.userId with
      | true =>
          simp only [if_true, wp_bind]
          refine wp_createChallenge (by simp [huser]) (fun t' hwrites => ?_) hcollides
          exact hok _ _ t' (.challenged rfl hadmitted hstepAction (by simp) hfactor) hwrites
      | false =>
          simp only [Bool.false_eq_true, if_false, wp_bind]
          refine wp_createChallenge (by simp [huser]) (fun t' hwrites => ?_) hcollides
          exact hok _ _ t' (.denied rfl hadmitted hstepAction (by simp) hfactor) hwrites
  cases action with
  | ALLOW =>
      simp only [enforce, wp_bind, wp_passkeyOffer]
      simp only [createSessionWithCallback, wp_transaction]
      refine wp_mint (fun t' _ hwrites _ _ hparses => ?_) fun h t' _ => ?_
      · exact hok _ _ t' (.allowed rfl hadmitted haction hparses) hwrites
      · rcases h with hnone | htoken | hcode | ⟨target, htarget, hparses⟩
        · rw [huser] at hnone
          cases hnone
        · exact herror (Or.inl (Or.inl htoken)) _ rfl
        · exact herror (Or.inl (Or.inr (Or.inl hcode))) _ rfl
        · exact herror (Or.inr ⟨user, target, hadmitted, haction, htarget, hparses⟩) _ rfl
  | REQUIRE_MFA => exact hstepUp _ (Or.inl rfl) haction
  | REAUTHENTICATE => exact hstepUp _ (Or.inr rfl) haction
  | BLOCK => exact hok _ _ t (.blocked rfl hadmitted haction) (by simp)

theorem wp_authenticate {attempt : Attempt} {Q : LoginResponse → World → Prop}
    {E : World → Prop} {t : World}
    (hok : ∀ response ws t', LoginEffect env d t.db (some attempt) response ws →
      t'.writes = t.writes ++ ws → Q response t')
    (herror : LoginFails env d t.db attempt → ∀ t' : World, t'.writes = t.writes → E t') :
    (authenticate env d attempt).wp Q E t := by
  simp only [authenticate, wp_bind]
  refine wp_checkCredentials (fun response t' hsame hnot hresponse => ?_)
    (fun userId t' hsame hnot => ?_) fun user t' hsame hadmitted => ?_
  · have hnever : ∀ a, some attempt = some a → ∀ user, ¬ Admitted env t.db.toDirectory a user := by
      rintro _ ⟨⟩
      exact hnot
    exact hok response [] t' (.refused hnever hresponse) (by simp [hsame.writes])
  · have hnever : ∀ a, some attempt = some a → ∀ user, ¬ Admitted env t.db.toDirectory a user := by
      rintro _ ⟨⟩
      exact hnot
    simp only [reportFailedLogin, wp_bind, wp_when, wp_call, wp_pure]
    exact ⟨fun _ => ⟨fun _ => hok _ [] _ (.refused hnever (Or.inl rfl)) (by simp [hsame.writes]),
      fun _ => hok _ [] _ (.refused hnever (Or.inl rfl)) (by simp [hsame.writes])⟩,
      fun _ => hok _ [] _ (.refused hnever (Or.inl rfl)) (by simp [hsame.writes])⟩
  · have hdb : t'.db = t.db := hsame.db
    have hok' : ∀ response ws (t'' : World), LoginEffect env d t.db (some attempt) response ws →
        t''.writes = t'.writes ++ ws → Q response t'' := by
      intro response ws t'' heffect hwrites
      exact hok response ws t'' heffect (by rw [hwrites, hsame.writes])
    have herror' : LoginFails env d t.db attempt → ∀ t'' : World, t''.writes = t'.writes → E t'' :=
      fun hfails t'' hwrites => herror hfails t'' (hwrites.trans hsame.writes)
    cases hoff : d.policy.filter fun policy => policy.engineMode == .OFF with
    | some policy =>
        have hdecision : decisionOf env d = none := by
          obtain ⟨hpolicy, hmode⟩ := Option.filter_eq_some_iff.mp hoff
          simp [decisionOf, engineOff, hpolicy, hmode]
        have haction : enforcedAction env d t.db.toDirectory attempt user =
            floor (env.lib.baseAction policy.basePolicy)
              (asksForPasskey t.db.toDirectory user attempt.applicationId) := by
          simp [enforcedAction, actionOf, hoff]
        have henforce := wp_enforce hdb hadmitted haction hok' herror'
        rwa [hdecision] at henforce
    | none =>
        have hdecision : decisionOf env d = some (d.pdp.getD
            (degradedDecision env d ((d.policy.map TenantPolicy.engineMode).getD .ACTIVE))) := by
          have hon : engineOff d.policy = false := by
            cases hpolicy : d.policy with
            | none => rfl
            | some policy =>
                rw [hpolicy] at hoff
                simpa [engineOff, Option.filter_eq_none_iff] using hoff
          simp [decisionOf, hon]
        have haction : enforcedAction env d t.db.toDirectory attempt user =
            floor (d.pdp.getD (degradedDecision env d
                ((d.policy.map TenantPolicy.engineMode).getD .ACTIVE))).enforcedAction
              (asksForPasskey t.db.toDirectory user attempt.applicationId) := by
          cases hpdp : d.pdp <;> simp [enforcedAction, actionOf, hoff, hpdp, degradedDecision]
        simp only [wp_bind, wp_call]
        have henforce := wp_enforce (t := { t' with calls := t'.calls ++ [.evaluate
          (evaluateRequest env d user.userId attempt
            (scoredIp attempt.ipAddress env.settings.privateIpIsHome)
            (resolveLoginSignals env (scoredIp attempt.ipAddress env.settings.privateIpIsHome)
              attempt.country attempt.asn) true
            (asksForPasskey t.db.toDirectory user attempt.applicationId)) d.pdp] })
          hdb hadmitted haction hok' herror'
        rwa [hdecision] at henforce

theorem wp_login {body : LoginRequest} {deviceCookie : Option String}
    {Q : LoginResponse → World → Prop} {E : World → Prop} {t : World}
    (hok : ∀ response ws t',
      LoginEffect env d t.db (attemptOf env t.db.toDirectory (.login body deviceCookie)) response
        ws →
      t'.writes = t.writes ++ ws → Q response t')
    (herror : attemptOf env t.db.toDirectory (.login body deviceCookie) = none ∨
        (∃ a, attemptOf env t.db.toDirectory (.login body deviceCookie) = some a ∧
          LoginFails env d t.db a) →
      ∀ t' : World, t'.writes = t.writes → E t') :
    (login env d body deviceCookie).wp Q E t := by
  simp only [login, wp_bind, wp_transaction, wp_read, wp_require]
  refine ⟨fun hnone => herror (Or.inl ?_) _ rfl, fun app happ => ?_⟩
  · simp [attemptOf, hnone]
  · have hattempt : attemptOf env t.db.toDirectory (.login body deviceCookie) =
        some (loginAttempt body deviceCookie app) := by
      simp [attemptOf, happ]
    rw [hattempt] at hok
    exact wp_authenticate hok fun hfails => herror (Or.inr ⟨_, hattempt, hfails⟩)

theorem wp_consoleLogin {body : ConsoleLoginRequest} {deviceCookie : Option String}
    {Q : LoginResponse → World → Prop} {E : World → Prop} {t : World}
    (hok : ∀ response ws t', LoginEffect env d t.db
      (attemptOf env t.db.toDirectory (.consoleLogin body deviceCookie)) response ws →
      t'.writes = t.writes ++ ws → Q response t')
    (herror : (∃ a, attemptOf env t.db.toDirectory (.consoleLogin body deviceCookie) = some a ∧
        LoginFails env d t.db a) →
      ∀ t' : World, t'.writes = t.writes → E t') :
    (consoleLogin env d body deviceCookie).wp Q E t := by
  simp only [consoleLogin, wp_bind, wp_transaction, wp_read, wp_pure]
  have hrefuse : attemptOf env t.db.toDirectory (.consoleLogin body deviceCookie) = none →
      (verifyPassword env body.password none >>= fun _ =>
        (pure { outcome := .INVALID_CREDENTIALS } : App LoginResponse)).wp Q E t := by
    intro hnone
    simp only [verifyPassword, wp_bind, wp_call, wp_pure]
    refine hok _ [] _ (.refused (fun a ha => ?_) (Or.inl rfl)) (by simp)
    rw [hnone] at ha
    cases ha
  cases htenant : tenantForOperatorEmail env t.db.toDirectory body.email with
  | none => exact hrefuse (by simp [attemptOf, htenant])
  | some tenant =>
      cases hconsole : consoleOf t.db.toDirectory (some tenant) with
      | none => exact hrefuse (by simp [attemptOf, htenant, hconsole])
      | some console =>
          have hattempt : attemptOf env t.db.toDirectory (.consoleLogin body deviceCookie) =
              some (consoleAttempt body deviceCookie tenant console) := by
            simp [attemptOf, htenant, hconsole]
          rw [hattempt] at hok
          exact wp_authenticate hok fun hfails => herror ⟨_, hattempt, hfails⟩

end RbaIdp
