import RbaIdp.Custody
import RbaIdp.Noninterference

/-!
# Sign-in that sees one tenant only

The requests of sign-in name no operator.  Whose a request is follows from what it
presents (`tenantOf`): a login is of the tenant of the application, or the one its
email's domain is routed to; a step-up, a code or a token is of the tenant of the user
it was made for.

A request of a tenant answers alike in two states that differ in nothing of the tenant,
and leaves two such states (`coupled_serve`).  `Ready` is what it needs besides: what
sign-in left is of one tenant each (`Attributed`), and the ids it draws are nobody's.
-/

namespace RbaIdp

open Relational Program

variable {tenantId : String} {db db' : Db} {env : Env} {d : Draws}

/-! ## What sign-in reads -/

section Reading

variable (h : Twin tenantId db db')

include h

theorem userByEmail_twin {email : String} :
    userByEmail env db.toDirectory tenantId email =
      userByEmail env db'.toDirectory tenantId email := by
  have hrow : ∀ u : User, (u.tenantId == tenantId && u.email == env.lib.lower (strip email)) =
      true → u.tenantId = tenantId ∧ u.email = env.lib.lower (strip email) := by
    intro u hu
    simpa using hu
  have hone : ∀ {dir : Directory}, Constraints dir → ∀ u ∈ dir.users, ∀ v ∈ dir.users,
      (u.tenantId == tenantId && u.email == env.lib.lower (strip email)) = true →
      (v.tenantId == tenantId && v.email == env.lib.lower (strip email)) = true → u = v := by
    intro dir hunique u hu v hv hp hq
    exact hunique.users u hu v hv (Prod.ext ((hrow u hp).1.trans (hrow v hq).1.symm)
      ((hrow u hp).2.trans (hrow v hq).2.symm))
  exact h.agree.users.first?_eq (fun u _ hu => (hrow u hu).1) (fun u _ hu => (hrow u hu).1)
    (hone h.constraints) (hone h.constraints')

/-- The roles a user of the tenant holds are roles of the tenant, and held in both states. -/
theorem holdsRole_twin {userId : String} (hown : db.userTenant userId = some tenantId) {r : Role}
    (hr : r ∈ db.roles) (hholds : holdsRole db.toDirectory userId r.roleId = true) :
    r ∈ db'.roles ∧ r.tenantId = tenantId ∧ holdsRole db'.toDirectory userId r.roleId = true := by
  obtain ⟨gr, hgr, hrole, m, hm, hgroup, huser⟩ := holdsRole_iff.mp hholds
  have hgroupOwner : db.groupTenant gr.groupId = some tenantId := by
    rw [← hgroup]
    exact group_of_user h.owned hm (by rw [huser]; exact hown)
  obtain ⟨owner, applicationId, howner, hroleOwners⟩ := h.owned.groupRoles gr hgr
  have hroleOwner := roleTenant_of_owners hroleOwners
  rw [hrole, Directory.roleTenant, Table.get_of_mem hr, Option.map_some, Option.some.injEq]
    at hroleOwner
  have htenant : r.tenantId = tenantId :=
    hroleOwner.trans (Option.some.inj (howner.symm.trans hgroupOwner))
  refine ⟨h.agree.roles.mem hr htenant, htenant, holdsRole_iff.mpr ⟨gr,
    h.agree.groupRoles.mem hgr hgroupOwner, hrole, m, ?_, hgroup, huser⟩⟩
  exact h.agree.groupMemberships.mem hm (by rw [hgroup]; exact hgroupOwner)

theorem hasApplicationAccess_twin {userId applicationId : String}
    (hown : db.userTenant userId = some tenantId) :
    hasApplicationAccess db.toDirectory userId applicationId =
      hasApplicationAccess db'.toDirectory userId applicationId := by
  have hforth : ∀ {db db' : Db}, Twin tenantId db db' → db.userTenant userId = some tenantId →
      hasApplicationAccess db.toDirectory userId applicationId = true →
        hasApplicationAccess db'.toDirectory userId applicationId = true := by
    intro db db' h hown haccess
    obtain ⟨r, hr, happ, hholds⟩ := hasApplicationAccess_iff.mp haccess
    obtain ⟨hr', -, hholds'⟩ := holdsRole_twin h hown hr hholds
    exact hasApplicationAccess_iff.mpr ⟨r, hr', happ, hholds'⟩
  rw [Bool.eq_iff_iff]
  exact ⟨hforth h hown, hforth h.symm (userTenant_twin h hown)⟩

theorem effectivePermissions_twin {userId applicationId : String}
    (hown : db.userTenant userId = some tenantId) :
    effectivePermissions db.toDirectory userId applicationId =
      effectivePermissions db'.toDirectory userId applicationId := by
  have hforth : ∀ {db db' : Db}, Twin tenantId db db' → db.userTenant userId = some tenantId →
      ∀ s ∈ effectivePermissions db.toDirectory userId applicationId,
        s ∈ effectivePermissions db'.toDirectory userId applicationId := by
    intro db db' h hown s hs
    obtain ⟨p, hp, happ, hscope, rp, hrp, hperm, r, hr, hrole, hrapp, hholds⟩ :=
      mem_effectivePermissions.mp hs
    obtain ⟨hr', htenant, hholds'⟩ := holdsRole_twin h hown hr hholds
    have hroleOwner : db.roleTenant rp.roleId = some tenantId := by
      rw [← hrole, Directory.roleTenant, Table.get_of_mem hr, Option.map_some, htenant]
    have happOwner : db.applicationTenant p.applicationId = some tenantId := by
      rw [happ, ← hrapp, h.owned.roles r hr, htenant]
    exact mem_effectivePermissions.mpr ⟨p, h.agree.permissions.mem hp happOwner, happ, hscope, rp,
      h.agree.rolePermissions.mem hrp hroleOwner, hperm, r, hr', hrole, hrapp, hholds'⟩
  ext s
  exact ⟨hforth h hown s, hforth h.symm (userTenant_twin h hown) s⟩

theorem hasPasskey_twin {userId : String} (hown : db.userTenant userId = some tenantId) :
    db.hasPasskey userId = db'.hasPasskey userId := by
  have hown' := userTenant_twin h hown
  refine h.agree.webauthnCredentials.exists?_eq (fun c _ hc => ?_) fun c _ hc => ?_
  · rw [beq_iff_eq.mp hc]
    exact hown
  · rw [beq_iff_eq.mp hc]
    exact hown'

end Reading

/-- The passkeys a user may answer a step-up with, in the order they are offered. -/
theorem credIds_indistinct (h : Indistinct tenantId db db') {userId : String}
    (hown : db.userTenant userId = some tenantId) :
    (db.webauthnCredentials.select fun c => c.userId == userId).map
        WebAuthnCredential.credentialId =
      (db'.webauthnCredentials.select fun c => c.userId == userId).map
        WebAuthnCredential.credentialId := by
  have hselected : ∀ {db : Db}, db.userTenant userId = some tenantId →
      (db.webauthnCredentials.select fun c => c.userId == userId) =
        (db.passkeysOf tenantId).filter fun c => c.userId == userId := by
    intro db hown
    rw [Db.passkeysOf, Table.select, Table.select, List.filter_filter]
    refine List.filter_congr fun c _ => ?_
    by_cases hc : c.userId = userId
    · simp [hc, hown]
    · simp [hc]
  rw [hselected hown, hselected ((userTenant_agree h.agree).mp hown), h.passkeys]

/-! ## Both runs at once -/

/-- The states of both runs differ in nothing of the tenant, and the request knows
something of both. -/
structure Aware (tenantId : String) (K : Db → Prop) (db db' : Db) : Prop where
  twin : Twin tenantId db db'
  passkeys : db.passkeysOf tenantId = db'.passkeysOf tenantId
  knows : K db
  knows' : K db'

/-- Aware of nothing else. -/
abbrev Unaware (tenantId : String) : Db → Db → Prop := Aware tenantId fun _ => True

/-- The ids drawn are nobody's. -/
structure NewDraws (env : Env) (d : Draws) (db : Db) : Prop where
  token : db.sessions.get (hashSessionToken env d.token) = none
  /-- no code is bound to a session of that token -/
  bound : ∀ c ∈ db.authCodes, c.sessionHash ≠ hashSessionToken env d.token
  code : db.authCodes.get (hashSessionToken env d.code) = none
  challenge : db.mfaChallenges.get d.challengeId = none
  activation : db.activationCodes.get (hashCode env (newActivationCode d.code)) = none

section Rules

variable {K J : Db → Prop} {α : Type} {Q : α → Db → Db → Prop}

theorem Aware.mono (h : Aware tenantId K db db') (hK : ∀ db, K db → J db) :
    Aware tenantId J db db' := ⟨h.twin, h.passkeys, hK _ h.knows, hK _ h.knows'⟩

theorem Aware.indistinct (h : Aware tenantId K db db') : Indistinct tenantId db db' :=
  ⟨h.twin.agree, h.passkeys⟩

theorem coupled_aware {m : App α} (hK : ∀ db, K db → J db) (h : Coupled (Aware tenantId J) m Q) :
    Coupled (Aware tenantId K) m Q :=
  h.mono (fun _ _ haware => haware.mono hK) fun _ _ _ hq => hq

/-- Nothing more is to be done. -/
theorem coupled_done {a : α} :
    Coupled (Aware tenantId K) (pure a : App α) fun _ => Unaware tenantId :=
  coupled_pure fun _ _ h => h.mono fun _ _ => trivial

/-- A statement on a row of the tenant. -/
theorem coupled_written {w : ArtefactWrite}
    (hw : ∀ db, K db → w.tenant db = some tenantId ∧ w.Free db)
    (hK : ∀ db, K db → J (Statement.effect (Write.artefact w) db)) :
    Coupled (Aware tenantId K) (onArtefacts w) fun _ => Aware tenantId J := by
  refine coupled_execute fun db db' h => ?_
  obtain ⟨hown, hfree⟩ := hw _ h.knows
  obtain ⟨hown', hfree'⟩ := hw _ h.knows'
  have hafter := indistinct_artefact h.indistinct hown hfree hfree'
  refine ⟨(accepted_of_tenant hown hfree).trans (accepted_of_tenant hown' hfree').symm, fun _ => ?_⟩
  exact ⟨⟨hafter.agree, h.twin.owned, h.twin.owned', h.twin.constraints, h.twin.constraints'⟩,
    hafter.passkeys, hK _ h.knows, hK _ h.knows'⟩

/-- The time of a login of one of the tenant's users. -/
theorem coupled_lastLogin {userId : String} {now : Time}
    (hown : ∀ db, K db → db.userTenant userId = some tenantId)
    (hK : ∀ db, K db → J (Statement.effect (Write.directory (.setUserLastLogin userId now)) db)) :
    Coupled (Aware tenantId K) (onDirectory (.setUserLastLogin userId now))
      fun _ => Aware tenantId J := by
  have haccepted : ∀ {db : Db}, db.userTenant userId = some tenantId →
      (DirectoryWrite.setUserLastLogin userId now).violates db.toDirectory = false := by
    intro db hown
    obtain ⟨row, hget, -⟩ := Option.map_eq_some_iff.mp hown
    rw [DirectoryWrite.violates, hget, Option.isNone_some]
  refine coupled_execute fun db db' h => ?_
  have hthere := haccepted (hown _ h.knows)
  have hthere' := haccepted (hown _ h.knows')
  have hafter : Indistinct tenantId
      (Statement.effect (Write.directory (.setUserLastLogin userId now)) db)
      (Statement.effect (Write.directory (.setUserLastLogin userId now)) db') :=
    indistinct_lastLogin h.indistinct
  refine ⟨hthere.trans hthere'.symm, fun _ => ?_⟩
  exact ⟨⟨hafter.agree, owned_lastLogin h.twin.owned, owned_lastLogin h.twin.owned',
    constraints_effect hthere h.twin.constraints, constraints_effect hthere' h.twin.constraints'⟩,
    hafter.passkeys, hK _ h.knows, hK _ h.knows'⟩

/-- Reading what the two states have in common. -/
theorem coupled_learn {f : Db → α} (h : ∀ db db', Aware tenantId K db db' → f db = f db') :
    Coupled (Aware tenantId K) (read f : App α)
      fun a => Aware tenantId fun db => K db ∧ f db = a := by
  refine coupled_read fun db db' haware => ?_
  have hsame := h db db' haware
  exact ⟨hsame, haware.twin, haware.passkeys, ⟨haware.knows, rfl⟩, haware.knows', hsame.symm⟩

/-- Refusing, or going on with a row that is there. -/
theorem coupled_required {o : Option α} {e : HTTPException}
    (hK : ∀ a, o = some a → ∀ db, K db → J db) :
    Coupled (Aware tenantId K) (require o e : App α)
      fun a => Aware tenantId fun db => J db ∧ o = some a :=
  coupled_require fun a ha _ _ h => h.mono fun db hk => ⟨hK a ha db hk, ha⟩

theorem coupled_refused {c : Prop} [Decidable c] {e : HTTPException} :
    Coupled (Aware tenantId K) (raiseIf c e : App Unit)
      fun _ => Aware tenantId fun db => K db ∧ ¬ c :=
  coupled_raiseIf fun hc _ _ h => h.mono fun _ hk => ⟨hk, hc⟩

/-- Calls outside leave both states as they are. -/
theorem coupled_called {c : Call} :
    Coupled (Aware tenantId K) (Program.call c : App Unit) fun _ => Aware tenantId K :=
  coupled_call fun _ _ h => h

theorem coupled_verifyPassword {password : String} {passwordHash : Option String} :
    Coupled (Aware tenantId K) (verifyPassword env password passwordHash)
      fun _ => Aware tenantId K :=
  coupled_bind coupled_called fun _ => coupled_pure fun _ _ h => h

end Rules

/-! ## Sessions, callbacks and challenges -/

section SignIn

variable {K : Db → Prop} {userId applicationId : String}

theorem coupled_hasPasskey (hown : ∀ db, K db → db.userTenant userId = some tenantId) :
    Coupled (Aware tenantId K) (hasPasskey userId) fun _ => Aware tenantId K := by
  refine coupled_transaction ((coupled_learn fun db db' h => ?_).mono (fun _ _ h => h)
    fun _ _ _ h => h.mono fun _ hk => hk.1)
  exact hasPasskey_twin h.twin (hown _ h.knows)

theorem coupled_hasSecondFactor (hown : ∀ db, K db → db.userTenant userId = some tenantId) :
    Coupled (Aware tenantId K) (hasSecondFactor env userId) fun _ => Aware tenantId K := by
  unfold hasSecondFactor
  split
  · exact coupled_pure fun _ _ h => h
  · exact coupled_hasPasskey hown

/-- The user and the application are of the tenant, and no session and no code has the
digests drawn. -/
structure MayOpen (env : Env) (d : Draws) (tenantId userId applicationId : String) (db : Db) :
    Prop where
  oneTenant : OneTenant userId applicationId tenantId db
  token : db.sessions.get (hashSessionToken env d.token) = none
  code : db.authCodes.get (hashSessionToken env d.code) = none

/-- The session is there, and no code has the digest drawn. -/
structure MayCallBack (env : Env) (d : Draws) (tenantId userId applicationId : String) (db : Db) :
    Prop where
  oneTenant : OneTenant userId applicationId tenantId db
  code : db.authCodes.get (hashSessionToken env d.code) = none

theorem coupled_persistSession {mayEnroll : Bool} :
    Coupled (Aware tenantId (MayOpen env d tenantId userId applicationId))
      (persistSession env d userId applicationId mayEnroll)
      fun _ => Aware tenantId (MayCallBack env d tenantId userId applicationId) := by
  refine coupled_bind (coupled_learn fun db db' h => ?_) fun user => ?_
  · exact user_agree h.twin.agree h.knows.oneTenant.1
  refine coupled_aware (J := MayOpen env d tenantId userId applicationId) (fun _ hk => hk.1) ?_
  refine coupled_bind (I := fun _ => Aware tenantId (MayOpen env d tenantId userId applicationId))
    (coupled_ifSome (fun _ _ => ?_) fun _ _ h => h) fun _ => ?_
  · refine coupled_lastLogin (fun _ hk => hk.oneTenant.1) fun db hk => ?_
    exact ⟨⟨(userTenant_lastLogin _).trans hk.oneTenant.1, hk.oneTenant.2⟩, hk.token, hk.code⟩
  · refine coupled_bind
      (I := fun _ => Aware tenantId (MayCallBack env d tenantId userId applicationId))
      (coupled_written (fun _ hk => ⟨hk.oneTenant.1, hk.token⟩) fun _ hk => ?_) fun _ =>
        coupled_pure fun _ _ h => h
    exact ⟨hk.oneTenant, hk.code⟩

theorem coupled_persistCallback {sessionHash : String} {requested registered : Option String} :
    Coupled (Aware tenantId (MayCallBack env d tenantId userId applicationId))
      (persistCallback env d userId applicationId sessionHash requested registered)
      fun _ => Aware tenantId (OneTenant userId applicationId tenantId) := by
  unfold persistCallback
  split
  · exact coupled_pure fun _ _ h => h.mono fun _ hk => hk.oneTenant
  · exact coupled_bind (I := fun _ => Aware tenantId (OneTenant userId applicationId tenantId))
      (coupled_written (fun _ hk => ⟨hk.oneTenant.1, hk.code⟩) fun _ hk => hk.oneTenant)
      fun _ => coupled_bind (coupled_raiseIf fun _ _ _ h => h) fun _ => coupled_pure fun _ _ h => h

theorem coupled_createSessionWithCallback {requested registered : Option String}
    {mayEnroll : Bool} :
    Coupled (Aware tenantId (MayOpen env d tenantId userId applicationId))
      (createSessionWithCallback env d userId applicationId requested registered mayEnroll)
      fun _ => Unaware tenantId :=
  coupled_transaction (coupled_bind coupled_persistSession fun _ =>
    coupled_bind coupled_persistCallback fun _ => coupled_done)

theorem coupled_createChallenge {action : Action} {decision : Option RiskEvaluateResponse}
    {deniedReason : Option String} :
    Coupled (Aware tenantId fun db => db.userTenant userId = some tenantId ∧ NewDraws env d db)
      (createChallenge env d userId applicationId action decision deniedReason)
      fun _ => Unaware tenantId :=
  coupled_bind (I := fun _ => Unaware tenantId) (coupled_transaction (coupled_written
    (fun _ hk => ⟨hk.1, hk.2.challenge⟩) fun _ _ => trivial)) fun _ => coupled_done

/-! ## Logins -/

/-- A user and an application of the tenant, and the ids drawn are nobody's. -/
def SignsInto (env : Env) (d : Draws) (tenantId userId applicationId : String) (db : Db) : Prop :=
  OneTenant userId applicationId tenantId db ∧ NewDraws env d db

theorem coupled_enforce {attempt : Attempt} {action : Action}
    {decision : Option RiskEvaluateResponse} :
    Coupled (Aware tenantId (SignsInto env d tenantId userId attempt.applicationId))
      (enforce env d userId attempt action decision) fun _ => Unaware tenantId := by
  have hopens : ∀ {offer : Bool},
      Coupled (Aware tenantId (SignsInto env d tenantId userId attempt.applicationId))
      (createSessionWithCallback env d userId attempt.applicationId attempt.requestedRedirect
        attempt.registeredRedirect offer) fun _ => Unaware tenantId :=
    coupled_aware (fun _ hk => ⟨hk.1, hk.2.token, hk.2.code⟩) coupled_createSessionWithCallback
  have hasks : Coupled (Aware tenantId (SignsInto env d tenantId userId attempt.applicationId))
      (hasSecondFactor env userId)
      fun _ => Aware tenantId (SignsInto env d tenantId userId attempt.applicationId) :=
    coupled_hasSecondFactor fun _ hk => hk.1.1
  cases action with
  | ALLOW =>
      refine coupled_bind
        (I := fun _ => Aware tenantId (SignsInto env d tenantId userId attempt.applicationId)) ?_
        fun offer => coupled_bind hopens fun _ => coupled_done
      unfold passkeyOffer
      split
      · exact coupled_bind (coupled_hasPasskey fun _ hk => hk.1.1) fun _ =>
          coupled_pure fun _ _ h => h
      · exact coupled_pure fun _ _ h => h
  | REQUIRE_MFA | REAUTHENTICATE =>
      refine coupled_bind hasks fun secondFactor => ?_
      refine coupled_aware (J := fun db => db.userTenant userId = some tenantId ∧ NewDraws env d db)
        (fun _ hk => ⟨hk.1.1, hk.2⟩) ?_
      cases secondFactor with
      | true => exact coupled_bind coupled_createChallenge fun _ => coupled_done
      | false => exact coupled_bind coupled_createChallenge fun _ => coupled_done
  | BLOCK => exact coupled_done

/-- The application of an attempt is the tenant's, and the ids drawn are nobody's. -/
def AttemptsAt (env : Env) (d : Draws) (tenantId : String) (attempt : Attempt) (db : Db) : Prop :=
  db.applicationTenant attempt.applicationId = some tenantId ∧ NewDraws env d db

/-- What the check of the credentials has found. -/
def Found (env : Env) (d : Draws) (tenantId applicationId : String) (checked : Checked) (db : Db) :
    Prop :=
  match checked with
  | .passed userId _ => SignsInto env d tenantId userId applicationId db
  | _ => True

theorem coupled_checkCredentials {attempt : Attempt} (hattempt : attempt.tenantId = tenantId) :
    Coupled (Aware tenantId (AttemptsAt env d tenantId attempt)) (checkCredentials env attempt)
      fun checked => Aware tenantId (Found env d tenantId attempt.applicationId checked) := by
  refine coupled_transaction (coupled_bind (coupled_learn fun db db' h => ?_) fun found => ?_)
  · rw [hattempt]
    exact userByEmail_twin h.twin
  cases huser : found.filter User.enabled with
  | none =>
      exact coupled_bind coupled_verifyPassword fun _ =>
        coupled_pure fun _ _ h => h.mono fun _ _ => trivial
  | some user =>
      obtain ⟨rfl, -⟩ := Option.filter_eq_some_iff.mp huser
      -- a user found in the tenant is the tenant's
      have howner : ∀ db : Db, userByEmail env db.toDirectory attempt.tenantId attempt.email =
          some user → db.userTenant user.userId = some tenantId := by
        intro db hfound
        obtain ⟨hmem, hrow⟩ := Table.first?_eq_some hfound
        rw [Directory.userTenant, Table.get_of_mem hmem, Option.map_some, ← hattempt]
        simp only [Bool.and_eq_true, beq_iff_eq] at hrow
        rw [hrow.1]
      refine coupled_aware (J := fun db => AttemptsAt env d tenantId attempt db ∧
        db.userTenant user.userId = some tenantId) (fun db hk => ⟨hk.1, howner db hk.2⟩) ?_
      refine coupled_bind coupled_verifyPassword fun matched => ?_
      cases matched with
      | false => exact coupled_pure fun _ _ h => h.mono fun _ _ => trivial
      | true =>
          refine coupled_bind (coupled_learn fun db db' h => ?_) fun alwaysPasskey => ?_
          · unfold asksForPasskey
            rw [(applicationTenant_agree h.twin.agree h.knows.1.1).1]
          refine coupled_aware
            (J := SignsInto env d tenantId user.userId attempt.applicationId)
            (fun _ hk => ⟨⟨hk.1.2, hk.1.1.1⟩, hk.1.1.2⟩) ?_
          refine coupled_bind (coupled_learn fun db db' h => ?_) fun access => ?_
          · exact hasApplicationAccess_twin h.twin h.knows.1.1
          cases access with
          | true => exact coupled_pure fun _ _ h => h.mono fun _ hk => hk.1
          | false =>
              rw [if_neg Bool.false_ne_true]
              split
              · exact coupled_pure fun _ _ h => h.mono fun _ _ => trivial
              · exact coupled_pure fun _ _ h => h.mono fun _ _ => trivial

theorem coupled_authenticate {attempt : Attempt} (hattempt : attempt.tenantId = tenantId) :
    Coupled (Aware tenantId (AttemptsAt env d tenantId attempt)) (authenticate env d attempt)
      fun _ => Unaware tenantId := by
  refine coupled_bind (coupled_checkCredentials hattempt) fun checked => ?_
  cases checked with
  | answered response => exact coupled_done
  | wrongPassword userId =>
      refine coupled_bind (I := fun _ => Unaware tenantId)
        (coupled_when (fun _ => ?_) fun _ _ _ h => h.mono fun _ _ => trivial) fun _ => coupled_done
      exact coupled_when (fun _ => coupled_aware (fun _ _ => trivial) coupled_called)
        fun _ _ _ h => h.mono fun _ _ => trivial
  | passed userId alwaysPasskey =>
      dsimp only
      split
      · exact coupled_enforce
      · exact coupled_bind coupled_called fun _ => coupled_enforce

end SignIn

theorem coupled_login {body : LoginRequest} {deviceCookie : Option String} :
    Coupled (Aware tenantId fun db =>
        db.applicationTenant body.applicationId = some tenantId ∧ NewDraws env d db)
      (login env d body deviceCookie) fun _ => Unaware tenantId := by
  refine coupled_bind (I := fun app => Aware tenantId fun db =>
    app.tenantId = tenantId ∧ AttemptsAt env d tenantId (loginAttempt body deviceCookie app) db)
    (coupled_transaction (coupled_bind (coupled_learn fun db db' h => ?_) fun found => ?_))
    fun app => ?_
  · exact (applicationTenant_agree h.twin.agree h.knows.1).1
  · refine (coupled_required fun app _ db hk => hk).mono (fun _ _ h => h) fun app db db' h =>
      h.mono fun db hk => ⟨?_, hk.1.1⟩
    obtain ⟨⟨⟨hown, -⟩, hget⟩, happ⟩ := hk
    rw [Directory.applicationTenant, hget, (Option.filter_eq_some_iff.mp happ).1] at hown
    exact Option.some.inj hown
  · intro t t' h
    exact coupled_authenticate h.knows.1 t t' (h.mono fun _ hk => hk.2)

theorem tenantForOperatorEmail_indistinct (h : Indistinct tenantId db db') {email : String}
    (hown : (tenantForOperatorEmail env db.toDirectory email).map Tenant.tenantId =
      some tenantId) :
    tenantForOperatorEmail env db.toDirectory email =
      tenantForOperatorEmail env db'.toDirectory email := by
  obtain ⟨tenant, hfound, htenant⟩ := Option.map_eq_some_iff.mp hown
  rw [hfound]
  simp only [tenantForOperatorEmail] at hfound ⊢
  split at hfound
  · cases hfound
  · next hdomain =>
    obtain ⟨row, hrow, hget⟩ := Option.bind_eq_some_iff.mp hfound
    have hroute : row.tenantId = tenantId := (Table.key_of_get hget).symm.trans htenant
    rw [if_neg hdomain, h.agree.tenantDomains.get_some hrow hroute, Option.bind_some,
      h.agree.tenants.get_some hget htenant]

theorem consoleOf_twin (h : Twin tenantId db db') {tenant : Option Tenant}
    (hown : tenant.map Tenant.tenantId = some tenantId) :
    consoleOf db.toDirectory tenant = consoleOf db'.toDirectory tenant := by
  obtain ⟨row, rfl, htenant⟩ := Option.map_eq_some_iff.mp hown
  simp only [consoleOf, Option.bind_some]
  refine Option.bind_congr fun console _ => congrArg _ ?_
  refine h.agree.applications.get_filter_of (fun app happ => ?_) fun app happ => ?_
  · simp only [Bool.and_eq_true, beq_iff_eq] at happ
    exact happ.2.trans htenant
  · simp only [Bool.and_eq_true, beq_iff_eq] at happ
    exact happ.2.trans htenant

theorem applicationTenant_of_console {tenant : Tenant} {console : String}
    (h : consoleOf db.toDirectory (some tenant) = some console) :
    db.applicationTenant console = some tenant.tenantId := by
  simp only [consoleOf, Option.bind_some] at h
  obtain ⟨id, -, hid⟩ := Option.bind_eq_some_iff.mp h
  obtain ⟨app, hfound, rfl⟩ := Option.map_eq_some_iff.mp hid
  obtain ⟨hget, hok⟩ := Option.filter_eq_some_iff.mp hfound
  simp only [Bool.and_eq_true, beq_iff_eq] at hok
  rw [Table.key_of_get hget, Directory.applicationTenant, hget, Option.map_some, hok.2]

theorem coupled_consoleLogin {body : ConsoleLoginRequest} {deviceCookie : Option String} :
    Coupled (Aware tenantId fun db =>
        (tenantForOperatorEmail env db.toDirectory body.email).map Tenant.tenantId =
          some tenantId ∧ NewDraws env d db)
      (consoleLogin env d body deviceCookie) fun _ => Unaware tenantId := by
  refine coupled_bind (I := fun found => Aware tenantId fun db =>
      found.1.map Tenant.tenantId = some tenantId ∧ NewDraws env d db ∧
        consoleOf db.toDirectory found.1 = found.2) (coupled_transaction ?_) fun found => ?_
  · refine coupled_bind (coupled_learn fun db db' h => ?_) fun tenant => ?_
    · exact tenantForOperatorEmail_indistinct h.indistinct h.knows.1
    refine coupled_aware (J := fun db => tenant.map Tenant.tenantId = some tenantId ∧
      NewDraws env d db) (fun _ hk => ⟨hk.2 ▸ hk.1.1, hk.1.2⟩) ?_
    refine coupled_bind (coupled_learn fun db db' h => ?_) fun console =>
      coupled_pure fun _ _ h => h.mono fun _ hk => ⟨hk.1.1, hk.1.2, hk.2⟩
    exact consoleOf_twin h.twin h.knows.1
  · obtain ⟨_ | tenant, _ | console⟩ := found
    all_goals try exact coupled_bind coupled_verifyPassword fun _ => coupled_done
    intro t t' h
    have htenant : tenant.tenantId = tenantId := Option.some.inj h.knows.1
    refine coupled_authenticate htenant t t' (h.mono fun _ hk => ⟨?_, hk.2.1⟩)
    rw [← htenant]
    exact applicationTenant_of_console hk.2.2

/-! ## Step-ups -/

/-- What sign-in leaves is of one tenant each. -/
structure Attributed (db : Db) : Prop where
  /-- a challenge is for an application of the user's tenant -/
  challenges : ∀ c ∈ db.mfaChallenges, ∃ tenantId, OneTenant c.userId c.applicationId tenantId db
  /-- a code is bound to a session of its user -/
  codes : ∀ c ∈ db.authCodes, ∀ r, db.sessions.get c.sessionHash = some r → r.userId = c.userId
  /-- a passkey is of a user that is there -/
  passkeys : ∀ c ∈ db.webauthnCredentials, ∃ tenantId, db.userTenant c.userId = some tenantId

/-- What a request relies on besides whose it is. -/
structure Ready (env : Env) (d : Draws) (db : Db) : Prop extends Attributed db where
  draws : NewDraws env d db

/-- A challenge of the tenant that a step-up is completed on. -/
structure Completing (env : Env) (d : Draws) (tenantId : String) (challenge : MfaChallenge)
    (db : Db) : Prop where
  oneTenant : OneTenant challenge.userId challenge.applicationId tenantId db
  there : db.challengeTenant challenge.challengeId = some tenantId
  token : db.sessions.get (hashSessionToken env d.token) = none
  code : db.authCodes.get (hashSessionToken env d.code) = none

theorem coupled_openChallenge {challengeId : String} :
    Coupled (Aware tenantId fun db =>
        db.challengeTenant challengeId = some tenantId ∧ Ready env d db)
      (openChallenge d challengeId) fun challenge => Aware tenantId fun db =>
        db.mfaChallenges.get challengeId = some challenge ∧
          Completing env d tenantId challenge db := by
  refine coupled_bind (coupled_learn fun db db' h => ?_) fun found => ?_
  · exact (challenge_agree h.twin.agree h.knows.1).1
  refine coupled_bind (coupled_required fun _ _ _ hk => hk) fun challenge => ?_
  refine coupled_bind coupled_refused fun _ => coupled_pure fun _ _ h => h.mono ?_
  rintro db ⟨⟨⟨⟨hown, hready⟩, hget⟩, hfound⟩, -⟩
  have hget := hget.trans hfound
  have hkey : challenge.challengeId = challengeId := Table.key_of_get hget
  refine ⟨hget, ?_, hkey ▸ hown, hready.draws.token, hready.draws.code⟩
  obtain ⟨owner, hone⟩ := hready.challenges challenge (Table.mem_of_get hget)
  rw [Db.challengeTenant, hget, Option.bind_some, hone.1, Option.some.injEq] at hown
  rwa [hown] at hone

theorem coupled_finishChallenge {challenge : MfaChallenge} {redirectUri : Option String} :
    Coupled (Aware tenantId (Completing env d tenantId challenge))
      (finishChallenge env d challenge redirectUri) fun _ =>
        Aware tenantId (OneTenant challenge.userId challenge.applicationId tenantId) := by
  refine coupled_bind (coupled_learn fun db db' h => ?_) fun access => ?_
  · exact hasApplicationAccess_twin h.twin h.knows.oneTenant.1
  cases access with
  | false => exact coupled_pure fun _ _ h => h.mono fun _ hk => hk.1.oneTenant
  | true =>
      refine coupled_bind (coupled_learn fun db db' h => ?_) fun app => ?_
      · exact (applicationTenant_agree h.twin.agree h.knows.1.oneTenant.2).1
      refine coupled_bind (I := fun _ => Aware tenantId
        (MayOpen env d tenantId challenge.userId challenge.applicationId))
        (coupled_written (fun _ hk => ⟨hk.1.1.there, trivial⟩) fun _ hk => ?_) fun _ => ?_
      · exact ⟨hk.1.1.oneTenant, hk.1.1.token, hk.1.1.code⟩
      · exact coupled_bind coupled_persistSession fun _ =>
          coupled_bind coupled_persistCallback fun _ => coupled_pure fun _ _ h => h

theorem coupled_challengeTenant {challenge : MfaChallenge} :
    Coupled (Aware tenantId (OneTenant challenge.userId challenge.applicationId tenantId))
      (challengeTenant challenge) fun _ => Unaware tenantId := by
  refine (coupled_learn fun db db' h => ?_).mono (fun _ _ h => h) fun _ _ _ h =>
    h.mono fun _ _ => trivial
  rw [(applicationTenant_agree h.twin.agree h.knows.2).1]

/-- Confirming to the risk engine leaves both states as they are. -/
theorem coupled_confirmStepUp {result : LoginResponse} {tenant : Option String} :
    Coupled (Unaware tenantId) (confirmStepUp d result tenant) fun _ => Unaware tenantId :=
  Keeps.coupled (keeps_when (keeps_ifSome fun _ => keeps_ifSome fun _ => keeps_attempt
    (keeps_bind keeps_call fun _ => keeps_raiseIf)))

theorem coupled_verifyMfa {body : MfaVerifyRequest} :
    Coupled (Aware tenantId fun db =>
        db.challengeTenant body.challengeId = some tenantId ∧ Ready env d db)
      (verifyMfa env d body) fun _ => Unaware tenantId := by
  refine coupled_bind coupled_refused fun _ => coupled_aware (fun _ hk => hk.1) ?_
  refine coupled_bind (I := fun _ => Unaware tenantId) (coupled_transaction ?_) fun found =>
    coupled_bind coupled_confirmStepUp fun _ => coupled_done
  refine coupled_bind coupled_openChallenge fun challenge => coupled_aware (fun _ hk => hk.2) ?_
  split
  · exact coupled_bind coupled_finishChallenge fun _ =>
      coupled_bind coupled_challengeTenant fun _ => coupled_done
  · exact coupled_done

theorem coupled_webauthnOptions {body : MfaWebAuthnOptionsRequest} :
    Coupled (Aware tenantId fun db =>
        db.challengeTenant body.challengeId = some tenantId ∧ Ready env d db)
      (webauthnOptions d body) fun _ => Unaware tenantId := by
  refine coupled_transaction (coupled_bind coupled_openChallenge fun challenge =>
    coupled_aware (fun _ hk => hk.2) ?_)
  refine coupled_bind (coupled_learn fun db db' h => ?_) fun credIds => ?_
  · exact credIds_indistinct h.indistinct h.knows.oneTenant.1
  refine coupled_bind coupled_refused fun _ => ?_
  exact coupled_bind (I := fun _ => Unaware tenantId)
    (coupled_written (fun _ hk => ⟨hk.1.1.there, trivial⟩) fun _ _ => trivial) fun _ => coupled_done

/-- The passkey of an answer is looked for among those of the challenge's user. -/
theorem assertion_twin (h : Twin tenantId db db') {challenge : MfaChallenge} {nonce : Bytes}
    {credential : Credential} (hown : db.userTenant challenge.userId = some tenantId) :
    assertion env db.toArtefacts challenge nonce credential =
      assertion env db'.toArtefacts challenge nonce credential := by
  have hsame : ∀ id, ((db.webauthnCredentials.get id).filter fun c =>
      c.userId == challenge.userId) = (db'.webauthnCredentials.get id).filter fun c =>
        c.userId == challenge.userId := by
    intro id
    refine h.agree.webauthnCredentials.get_filter_of (fun c hc => ?_) fun c hc => ?_
    · rw [beq_iff_eq.mp hc]
      exact hown
    · rw [beq_iff_eq.mp hc]
      exact userTenant_twin h hown
  simp only [assertion, hsame]

theorem coupled_verifyWebauthn {body : MfaWebAuthnVerifyRequest} :
    Coupled (Aware tenantId fun db =>
        db.challengeTenant body.challengeId = some tenantId ∧ Ready env d db)
      (verifyWebauthn env d body) fun _ => Unaware tenantId := by
  refine coupled_bind (I := fun _ => Unaware tenantId) (coupled_transaction ?_) fun found =>
    coupled_bind coupled_confirmStepUp fun _ => coupled_done
  refine coupled_bind coupled_openChallenge fun challenge => coupled_aware (fun _ hk => hk.2) ?_
  refine coupled_bind (coupled_required fun _ _ _ hk => hk) fun nonce => ?_
  refine coupled_bind coupled_refused fun _ => ?_
  refine coupled_aware (J := Completing env d tenantId challenge) (fun _ hk => hk.1.1) ?_
  refine coupled_bind (coupled_learn fun db db' h => ?_) fun verified => ?_
  · exact assertion_twin h.twin h.knows.oneTenant.1
  obtain _ | ⟨stored, newSignCount⟩ := verified
  · exact coupled_done
  refine coupled_bind (I := fun _ => Aware tenantId (Completing env d tenantId challenge))
    (coupled_written (fun db hk => ⟨?_, trivial⟩) fun _ hk => ?_) fun _ => ?_
  · -- the passkey is the user's
    obtain ⟨hcompleting, hassertion⟩ := hk
    simp only [assertion, Option.bind_eq_bind, Option.bind_eq_some_iff] at hassertion
    obtain ⟨id, -, c, hc, count, -, hsame⟩ := hassertion
    obtain ⟨rfl, -⟩ := Prod.mk.inj (Option.some.inj hsame)
    obtain ⟨hget, huser⟩ := Option.filter_eq_some_iff.mp hc
    show db.credentialTenant c.credentialId = some tenantId
    rw [Db.credentialTenant, Table.get_of_mem (Table.mem_of_get hget), Option.bind_some,
      beq_iff_eq.mp huser]
    exact hcompleting.oneTenant.1
  · exact ⟨hk.1.oneTenant, hk.1.there, hk.1.token, hk.1.code⟩
  · exact coupled_bind coupled_finishChallenge fun _ =>
      coupled_bind coupled_challengeTenant fun _ => coupled_done

/-! ## Codes and tokens -/

theorem coupled_exchangeCode {body : CallbackTokenRequest} :
    Coupled (Aware tenantId fun db =>
        db.codeTenant (hashSessionToken env body.code) = some tenantId ∧ Ready env d db)
      (exchangeCode env d body) fun _ => Unaware tenantId := by
  refine coupled_transaction (coupled_bind (coupled_learn fun db db' h => ?_) fun found => ?_)
  · exact (code_agree h.twin.agree h.knows.1).1
  refine coupled_bind (coupled_required fun _ _ _ hk => hk) fun row => ?_
  refine coupled_bind coupled_refused fun _ => ?_
  refine coupled_aware (J := fun db => db.codeTenant row.codeHash = some tenantId ∧
    db.userTenant row.userId = some tenantId ∧ Ready env d db ∧
    ∀ r, db.sessions.get row.sessionHash = some r → r.userId = row.userId) ?_ ?_
  · rintro db ⟨⟨⟨⟨hown, hready⟩, hget⟩, hfound⟩, -⟩
    have hget := hget.trans hfound
    have howner : db.userTenant row.userId = some tenantId := by
      rwa [Db.codeTenant, hget, Option.bind_some] at hown
    refine ⟨?_, howner, hready, hready.codes row (Table.mem_of_get hget)⟩
    rw [Table.key_of_get hget]
    exact hown
  refine coupled_bind (coupled_learn fun db db' h => ?_) fun session => ?_
  · -- the session it is bound to is of the same user
    refine h.twin.agree.sessions.get_eq (fun r hr => ?_) fun r hr => ?_
    · rw [h.knows.2.2.2 r hr]
      exact h.knows.2.1
    · rw [h.knows'.2.2.2 r hr]
      exact h.knows'.2.1
  refine coupled_bind (coupled_learn fun db db' h => ?_) fun user => ?_
  · exact user_twin h.twin h.knows.1.2.1
  refine coupled_bind (coupled_required fun _ _ _ hk => hk) fun stored => ?_
  refine coupled_bind coupled_refused fun _ => ?_
  refine coupled_bind (coupled_required fun _ _ _ hk => hk) fun owner => ?_
  refine coupled_aware (J := fun db => db.codeTenant row.codeHash = some tenantId ∧
    db.userTenant stored.userId = some tenantId ∧
    db.sessions.get (hashSessionToken env d.token) = none ∧
    db.sessions.get stored.tokenHash = some stored) ?_ ?_
  · rintro db ⟨⟨⟨⟨⟨⟨hcode, howner, hready, hbound⟩, hget⟩, -⟩, hsession⟩, -⟩, -⟩
    have hget := hget.trans hsession
    refine ⟨hcode, ?_, hready.draws.token, Table.get_of_mem (Table.mem_of_get hget)⟩
    rw [hbound stored hget]
    exact howner
  refine coupled_bind (coupled_written (J := fun db =>
      db.userTenant stored.userId = some tenantId ∧
      db.sessions.get (hashSessionToken env d.token) = none ∧
      db.sessions.get stored.tokenHash = some stored) (fun _ hk => ⟨hk.1, trivial⟩)
    fun _ hk => hk.2) fun _ => ?_
  refine coupled_bind (coupled_written (J := fun db =>
      db.sessionTenant stored.tokenHash = some tenantId) (fun _ hk => ⟨hk.1, hk.2.1⟩)
    fun db hk => ?_) fun _ => ?_
  · show ((db.sessions.insert _).get stored.tokenHash).bind _ = some tenantId
    rw [Table.get_insert, hk.2.2]
    exact hk.1
  exact coupled_bind (coupled_written (J := fun _ => True) (fun _ hk => ⟨hk, trivial⟩)
    fun _ _ => trivial) fun _ => coupled_done

/-- The tenant of the user a header is good for. -/
def bearerTenant (env : Env) (db : Db) (authorization : Option String) : Option String :=
  (bearerToken env authorization).bind fun raw => db.sessionTenant (hashSessionToken env raw)

/-- The session of a token of the tenant. -/
def BearsFor (tenantId : String) (row : IdpSession) (db : Db) : Prop :=
  db.sessionTenant row.tokenHash = some tenantId ∧ db.userTenant row.userId = some tenantId

theorem bearsFor_of_get {tokenHash : String} {row : IdpSession}
    (hown : db.sessionTenant tokenHash = some tenantId)
    (hget : db.sessions.get tokenHash = some row) : BearsFor tenantId row db := by
  refine ⟨?_, ?_⟩
  · rw [Table.key_of_get hget]
    exact hown
  · rwa [Db.sessionTenant, hget, Option.bind_some] at hown

/-- Reading the session of a bearer token. -/
theorem coupled_sessionOf {K : Db → Prop} {raw : String} :
    Coupled (Aware tenantId fun db =>
        db.sessionTenant (hashSessionToken env raw) = some tenantId ∧ K db)
      (read fun db => db.sessions.get (hashSessionToken env raw) : App (Option IdpSession))
      fun found => Aware tenantId fun db => (∀ row, found = some row → BearsFor tenantId row db) ∧
        K db := by
  refine (coupled_learn fun db db' h => ?_).mono (fun _ _ h => h) fun found _ _ h =>
    h.mono fun db hk => ⟨fun row hrow => bearsFor_of_get hk.1.1 (hk.2.trans hrow), hk.1.2⟩
  exact (session_agree h.twin.agree h.knows.1).1

theorem coupled_loadSession {authorization : Option String} :
    Coupled (Aware tenantId fun db => bearerTenant env db authorization = some tenantId)
      (loadSession env d authorization) fun _ => Unaware tenantId := by
  refine coupled_bind (I := fun raw => Aware tenantId fun db =>
    db.sessionTenant (hashSessionToken env raw) = some tenantId ∧ True)
    (coupled_require fun raw hraw _ _ h => h.mono fun db hk => ⟨?_, trivial⟩) fun raw => ?_
  · rwa [bearerTenant, hraw, Option.bind_some] at hk
  refine coupled_transaction (coupled_bind coupled_sessionOf fun found => ?_)
  refine coupled_bind (coupled_required fun _ _ _ hk => hk) fun row => ?_
  refine coupled_bind coupled_refused fun _ => ?_
  refine coupled_aware (J := fun db => db.userTenant row.userId = some tenantId)
    (fun _ hk => (hk.1.1.1 row hk.1.2).2) ?_
  refine coupled_bind (coupled_learn fun db db' h => ?_) fun owner => ?_
  · exact user_twin h.twin h.knows
  refine coupled_bind (coupled_required fun _ _ _ hk => hk) fun user => ?_
  refine coupled_bind (coupled_learn fun db db' h => ?_) fun permissions => coupled_done
  obtain ⟨⟨hown, hget⟩, huser⟩ := h.knows
  have hkey : user.userId = row.userId :=
    Table.key_of_get (hget.trans (Option.filter_eq_some_iff.mp huser).1)
  rw [hkey]
  exact effectivePermissions_twin h.twin hown

theorem coupled_getSession {authorization : Option String} :
    Coupled (Aware tenantId fun db => bearerTenant env db authorization = some tenantId)
      (getSession env d authorization) fun _ => Unaware tenantId :=
  coupled_bind coupled_loadSession fun _ => coupled_done

theorem coupled_logout {authorization : Option String} :
    Coupled (Aware tenantId fun db => bearerTenant env db authorization = some tenantId)
      (logout env authorization) fun _ => Unaware tenantId := by
  refine coupled_ifSome (fun raw hraw => coupled_transaction ?_) fun _ _ h =>
    h.mono fun _ _ => trivial
  refine coupled_aware (J := fun db => db.sessionTenant (hashSessionToken env raw) =
    some tenantId ∧ True) (fun db hk => ⟨?_, trivial⟩) ?_
  · rwa [bearerTenant, hraw, Option.bind_some] at hk
  refine coupled_bind coupled_sessionOf fun found => ?_
  exact coupled_ifSome (fun row hrow => coupled_written (fun _ hk => ⟨(hk.1 row hrow).1, trivial⟩)
    fun _ _ => trivial) fun _ _ h => h.mono fun _ _ => trivial

/-! ## Enrollment -/

/-- The passkey a browser has made is not registered to another tenant's user. -/
def OwnPasskey (env : Env) (tenantId : String) (credential : Credential) (db : Db) : Prop :=
  ∀ nonce verified, env.lib.verifyRegistration credential nonce = some verified →
    ∀ c, db.webauthnCredentials.get verified.credentialId = some c →
      db.userTenant c.userId = some tenantId

theorem coupled_storeCredential {K J : Db → Prop} {userId : String} {nonce : Bytes}
    {credential : Credential} (hown : ∀ db, K db → db.userTenant userId = some tenantId)
    (hpasskey : ∀ db, K db → OwnPasskey env tenantId credential db)
    (hkept : ∀ db row, K db → J (Statement.effect (Write.artefact (.insertCredential row)) db)) :
    Coupled (Aware tenantId K) (storeCredential env userId nonce credential)
      fun _ => Aware tenantId J := by
  refine coupled_bind (I := fun verified => Aware tenantId fun db =>
    K db ∧ env.lib.verifyRegistration credential nonce = some verified)
    (coupled_required fun _ _ _ hk => hk) fun verified => ?_
  refine coupled_bind (coupled_learn fun db db' h => ?_) fun existing => ?_
  · exact h.twin.agree.webauthnCredentials.get_eq
      (hpasskey _ h.knows.1 nonce verified h.knows.2)
      (hpasskey _ h.knows'.1 nonce verified h.knows'.2)
  refine coupled_bind coupled_refused fun _ => ?_
  refine coupled_written (fun db hk => ⟨hown db hk.1.1.1, ?_⟩) fun db hk => hkept db _ hk.1.1.1
  have hnone : existing = none := by simpa using hk.2
  exact hk.1.2.trans hnone

theorem coupled_enrollingSession {K : Db → Prop} {authorization : Option String} :
    Coupled (Aware tenantId fun db => bearerTenant env db authorization = some tenantId ∧ K db)
      (enrollingSession env d authorization) fun row => Aware tenantId fun db =>
        BearsFor tenantId row db ∧ K db := by
  refine coupled_bind (I := fun raw => Aware tenantId fun db =>
    db.sessionTenant (hashSessionToken env raw) = some tenantId ∧ K db)
    (coupled_require fun raw hraw _ _ h => h.mono fun db hk => ⟨?_, hk.2⟩) fun raw => ?_
  · have hbears := hk.1
    rwa [bearerTenant, hraw, Option.bind_some] at hbears
  refine coupled_bind coupled_sessionOf fun found => ?_
  refine coupled_bind (coupled_required fun _ _ _ hk => hk) fun row => ?_
  refine coupled_aware (J := fun db => BearsFor tenantId row db ∧ K db)
    (fun _ hk => ⟨hk.1.1 row hk.2, hk.1.2⟩) ?_
  refine coupled_bind coupled_refused fun _ => ?_
  refine coupled_bind (coupled_required fun _ _ _ hk => hk) fun enrollUntil => ?_
  exact coupled_bind coupled_refused fun _ => coupled_pure fun _ _ h => h.mono fun _ hk => hk.1.1.1

theorem coupled_sessionOptions {authorization : Option String} :
    Coupled (Aware tenantId fun db => bearerTenant env db authorization = some tenantId)
      (sessionOptions env d authorization) fun _ => Unaware tenantId := by
  refine coupled_transaction (coupled_bind (coupled_aware (fun _ hk => ⟨hk, trivial⟩)
    (coupled_enrollingSession (K := fun _ => True))) fun row => ?_)
  refine coupled_bind (coupled_learn fun db db' h => ?_) fun owner => ?_
  · exact user_twin h.twin h.knows.1.2
  refine coupled_bind (coupled_required fun _ _ _ hk => hk) fun user => ?_
  refine coupled_aware (J := fun db => db.sessionTenant row.tokenHash = some tenantId ∧
    db.userTenant user.userId = some tenantId) ?_ ?_
  · rintro db ⟨⟨⟨hbears, -⟩, hget⟩, huser⟩
    refine ⟨hbears.1, ?_⟩
    rw [Table.key_of_get (hget.trans (Option.filter_eq_some_iff.mp huser).1)]
    exact hbears.2
  refine coupled_bind (coupled_learn fun db db' h => ?_) fun enrolled => ?_
  · exact hasPasskey_twin h.twin h.knows.2
  cases enrolled with
  | true =>
      exact coupled_bind (coupled_written (J := fun _ => True) (fun _ hk => ⟨hk.1.1, trivial⟩)
        fun _ _ => trivial) fun _ => coupled_raise
  | false =>
      exact coupled_bind (coupled_written (J := fun _ => True) (fun _ hk => ⟨hk.1.1, trivial⟩)
        fun _ _ => trivial) fun _ => coupled_done

theorem coupled_sessionVerify {authorization : Option String} {body : PasskeyVerifyRequest} :
    Coupled (Aware tenantId fun db => bearerTenant env db authorization = some tenantId ∧
        OwnPasskey env tenantId body.credential db)
      (sessionVerify env d authorization body) fun _ => Unaware tenantId := by
  refine coupled_transaction (coupled_bind coupled_enrollingSession fun row => ?_)
  refine coupled_bind (coupled_required fun _ _ _ hk => hk) fun nonce => ?_
  refine coupled_bind (coupled_storeCredential (J := BearsFor tenantId row)
    (fun _ hk => hk.1.1.2) (fun _ hk => hk.1.2) fun _ _ hk => hk.1.1) fun _ => ?_
  refine coupled_bind (coupled_written (J := fun db =>
    db.sessionTenant row.tokenHash = some tenantId) (fun _ hk => ⟨hk.1, trivial⟩)
    fun db hk => ?_) fun _ => coupled_written (fun _ hk => ⟨hk, trivial⟩) fun _ _ => trivial
  obtain ⟨r, hget, hown⟩ := Option.bind_eq_some_iff.mp hk.1
  have hafter : (Statement.effect (Write.artefact (.lapseOffer row.tokenHash)) db).sessions.get
      row.tokenHash = some { r with enrollUntil := none } := by
    simp [ArtefactWrite.effect, hget, Table.key_of_get hget]
  rw [Db.sessionTenant, hafter]
  exact hown

/-- A code of the tenant. -/
def OpensFor (tenantId : String) (row : ActivationCode) (db : Db) : Prop :=
  db.activationTenant row.codeHash = some tenantId ∧ db.userTenant row.userId = some tenantId

/-- Reading the row of an activation code. -/
theorem coupled_openCode {K : Db → Prop} {code : String} :
    Coupled (Aware tenantId fun db =>
        db.activationTenant (hashCode env code) = some tenantId ∧ K db)
      (read fun db => openCode env d db.toArtefacts code : App (Option ActivationCode))
      fun found => Aware tenantId fun db => (∀ row, found = some row → OpensFor tenantId row db) ∧
        K db := by
  refine (coupled_learn fun db db' h => ?_).mono (fun _ _ h => h) fun found _ _ h =>
    h.mono fun db hk => ⟨fun row hrow => ?_, hk.1.2⟩
  · rw [openCode, openCode, (activation_agree h.twin.agree h.knows.1).1]
  · obtain ⟨⟨hown, -⟩, hopen⟩ := hk
    obtain ⟨hget, -⟩ := Option.filter_eq_some_iff.mp (hopen.trans hrow)
    refine ⟨?_, ?_⟩
    · rw [Table.key_of_get hget]
      exact hown
    · rwa [Db.activationTenant, hget, Option.bind_some] at hown

theorem coupled_activationOptions {body : ActivationOptionsRequest} :
    Coupled (Aware tenantId fun db =>
        db.activationTenant (hashCode env body.code) = some tenantId)
      (activationOptions env d body) fun _ => Unaware tenantId := by
  refine coupled_transaction (coupled_bind (coupled_aware (fun _ hk => ⟨hk, trivial⟩)
    (coupled_openCode (K := fun _ => True))) fun found => ?_)
  refine coupled_bind (coupled_learn fun db db' h => ?_) fun owner => ?_
  · cases found with
    | none => rfl
    | some row => exact user_twin h.twin (h.knows.1 row rfl).2
  have hrefuses : Coupled (Aware tenantId fun db : Db => True) (do
      let _ ← verifyPassword env body.password none
      Program.raise INVALID_CODE : App PasskeyOptionsResponse) fun _ => Unaware tenantId :=
    coupled_bind coupled_verifyPassword fun _ => coupled_raise
  cases found with
  | none => exact coupled_aware (fun _ _ => trivial) hrefuses
  | some row =>
      cases owner.filter User.enabled with
      | none => exact coupled_aware (fun _ _ => trivial) hrefuses
      | some user =>
          refine coupled_bind coupled_verifyPassword fun matched => ?_
          refine coupled_bind coupled_refused fun _ => ?_
          exact coupled_bind (coupled_written (J := fun _ => True)
            (fun _ hk => ⟨(hk.1.1.1 row rfl).1, trivial⟩) fun _ _ => trivial) fun _ => coupled_done

theorem coupled_activationVerify {body : ActivationVerifyRequest} :
    Coupled (Aware tenantId fun db =>
        db.activationTenant (hashCode env body.code) = some tenantId ∧
          OwnPasskey env tenantId body.credential db)
      (activationVerify env d body) fun _ => Unaware tenantId := by
  refine coupled_transaction (coupled_bind coupled_openCode fun found => ?_)
  refine coupled_bind (coupled_required fun _ _ _ hk => hk) fun row => ?_
  refine coupled_bind (coupled_required fun _ _ _ hk => hk) fun nonce => ?_
  refine coupled_bind (coupled_storeCredential (J := OpensFor tenantId row)
    (fun _ hk => (hk.1.1.1 row hk.1.2).2) (fun _ hk => hk.1.1.2)
    fun _ _ hk => hk.1.1.1 row hk.1.2) fun _ => ?_
  exact coupled_written (fun _ hk => ⟨hk.1, trivial⟩) fun _ _ => trivial

theorem coupled_issueActivationCode {op : Operator} {userId : String} :
    Coupled (Aware op.tenantId (NewDraws env d)) (issueActivationCode env d op userId)
      fun _ => Unaware op.tenantId := by
  refine coupled_transaction (coupled_bind (I := fun user => Aware op.tenantId fun db =>
    db.userTenant user.userId = some op.tenantId ∧ NewDraws env d db) ?_ fun user => ?_)
  · show Coupled _ (do
      let row ← read fun db : Db =>
        (db.users.get userId).filter fun r => r.tenantId == op.tenantId
      require row ⟨404, "unknown user"⟩ : App User) _
    refine coupled_bind (coupled_learn fun db db' h => ?_) fun found =>
      (coupled_required fun _ _ _ hk => hk).mono (fun _ _ h => h) fun user _ _ h => h.mono ?_
    · exact h.twin.agree.users.get_filter (fun _ => beq_iff_eq) fun _ => beq_iff_eq
    · rintro db ⟨⟨hnew, hfound⟩, rfl⟩
      obtain ⟨hget, htenant⟩ := Option.filter_eq_some_iff.mp hfound
      refine ⟨?_, hnew⟩
      rw [Directory.userTenant, Table.get_of_mem (Table.mem_of_get hget), Option.map_some,
        beq_iff_eq.mp htenant]
  refine coupled_bind coupled_refused fun _ => ?_
  refine coupled_bind (coupled_written (J := fun db =>
    db.userTenant user.userId = some op.tenantId ∧
      db.activationCodes.get (hashCode env (newActivationCode d.code)) = none)
    (fun _ hk => ⟨hk.1.1, trivial⟩) fun db hk => ⟨hk.1.1, ?_⟩) fun _ => ?_
  · simp [ArtefactWrite.effect, hk.1.2.activation]
  exact coupled_bind (coupled_written (J := fun _ => True) (fun _ hk => hk) fun _ _ => trivial)
    fun _ => coupled_done

/-! ## One request -/

/-- The tenant a request is of. -/
def tenantOf (env : Env) (db : Db) : Request → Option String
  | .login body _ => db.applicationTenant body.applicationId
  | .consoleLogin body _ =>
      (tenantForOperatorEmail env db.toDirectory body.email).map Tenant.tenantId
  | .verifyMfa body => db.challengeTenant body.challengeId
  | .webauthnOptions body => db.challengeTenant body.challengeId
  | .verifyWebauthn body => db.challengeTenant body.challengeId
  | .exchangeCode body => db.codeTenant (hashSessionToken env body.code)
  | .getSession authorization | .logout authorization | .sessionOptions authorization
  | .sessionVerify authorization _ => bearerTenant env db authorization
  | .activationOptions body => db.activationTenant (hashCode env body.code)
  | .activationVerify body => db.activationTenant (hashCode env body.code)
  | .admin _ .listTenants | .admin _ (.createTenant _) => none
  | .admin _ (.patchTenant tenantId _) => some tenantId
  | .admin op _ => some op.tenantId

/-- The passkey a browser has made, if the request enrolls one. -/
def enrolled : Request → Option Credential
  | .sessionVerify _ body => some body.credential
  | .activationVerify body => some body.credential
  | _ => none

/-- The requests of sign-in, the issuing of an activation code, and the calls of
operators on objects that are there.  The creations and the calls on tenants are left
out, all of them: most choose an id or route a domain that another tenant may have. -/
def Request.blind : Request → Bool
  | .admin _ (.issueActivationCode _) => true
  | .admin _ call => call.onExisting
  | _ => true

/-- A request of the tenant that may be answered. -/
structure MayAsk (env : Env) (d : Draws) (tenantId : String) (request : Request) (db : Db) :
    Prop where
  tenant : tenantOf env db request = some tenantId
  ready : Ready env d db
  passkey : ∀ credential, enrolled request = some credential →
    OwnPasskey env tenantId credential db

theorem coupled_answered {K J : Db → Prop} {α : Type} {m : App α} {f : α → Answer}
    (hK : ∀ db, K db → J db) (h : Coupled (Aware tenantId J) m fun _ => Unaware tenantId) :
    Coupled (Aware tenantId K) (answer m f) fun _ => Unaware tenantId :=
  coupled_aware hK (coupled_bind h fun _ => coupled_pure fun _ _ h => h)

theorem coupled_serve {request : Request} (hsignIn : ∀ op call, request ≠ .admin op call) :
    Coupled (Aware tenantId (MayAsk env d tenantId request)) (serve env d request)
      fun _ => Unaware tenantId := by
  cases request with
  | login body deviceCookie =>
      exact coupled_answered (fun _ hk => ⟨hk.tenant, hk.ready.draws⟩) coupled_login
  | consoleLogin body deviceCookie =>
      exact coupled_answered (fun _ hk => ⟨hk.tenant, hk.ready.draws⟩) coupled_consoleLogin
  | verifyMfa body => exact coupled_answered (fun _ hk => ⟨hk.tenant, hk.ready⟩) coupled_verifyMfa
  | webauthnOptions body =>
      exact coupled_answered (fun _ hk => ⟨hk.tenant, hk.ready⟩) coupled_webauthnOptions
  | verifyWebauthn body =>
      exact coupled_answered (fun _ hk => ⟨hk.tenant, hk.ready⟩) coupled_verifyWebauthn
  | exchangeCode body =>
      exact coupled_answered (fun _ hk => ⟨hk.tenant, hk.ready⟩) coupled_exchangeCode
  | getSession authorization => exact coupled_answered (fun _ hk => hk.tenant) coupled_getSession
  | logout authorization => exact coupled_answered (fun _ hk => hk.tenant) coupled_logout
  | sessionOptions authorization =>
      exact coupled_answered (fun _ hk => hk.tenant) coupled_sessionOptions
  | sessionVerify authorization body =>
      exact coupled_answered (fun _ hk => ⟨hk.tenant, hk.passkey _ rfl⟩) coupled_sessionVerify
  | activationOptions body =>
      exact coupled_answered (fun _ hk => hk.tenant) coupled_activationOptions
  | activationVerify body =>
      exact coupled_answered (fun _ hk => ⟨hk.tenant, hk.passkey _ rfl⟩) coupled_activationVerify
  | admin op call => exact absurd rfl (hsignIn op call)

/-- Whose a request is follows from the rows of the tenant it is of. -/
theorem tenantOf_indistinct (h : Indistinct tenantId db db') {request : Request}
    (hown : tenantOf env db request = some tenantId) :
    tenantOf env db' request = some tenantId := by
  have hbearer : ∀ {authorization}, bearerTenant env db authorization = some tenantId →
      bearerTenant env db' authorization = some tenantId := by
    intro authorization hbears
    obtain ⟨raw, hraw, hsession⟩ := Option.bind_eq_some_iff.mp hbears
    exact Option.bind_eq_some_iff.mpr ⟨raw, hraw, (session_agree h.agree hsession).2⟩
  cases request with
  | login => exact (applicationTenant_agree h.agree hown).2
  | consoleLogin body =>
      simp only [tenantOf] at hown ⊢
      rw [← tenantForOperatorEmail_indistinct h hown, hown]
  | verifyMfa | webauthnOptions | verifyWebauthn => exact (challenge_agree h.agree hown).2
  | exchangeCode => exact (code_agree h.agree hown).2
  | getSession | logout | sessionOptions | sessionVerify => exact hbearer hown
  | activationOptions | activationVerify => exact (activation_agree h.agree hown).2
  | admin op call => cases call <;> exact hown

end RbaIdp
