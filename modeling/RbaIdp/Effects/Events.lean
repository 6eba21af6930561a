import RbaIdp.Db.Rows
import RbaIdp.Effects.Serve

/-!
# What happened, and what it left

The events of sign-in, each a relation between a served request and the rows it
was about: what was checked, and in which state.  `Executes` gives every
statement on the artefacts the event it belongs to, and the lemmas below say for
every table which event a row that is there after a request comes from.
-/

namespace RbaIdp

open Relational Program

variable (env : Env) (s : Served)

/-! ## Events -/

/-- The request answered; one that raises has written nothing. -/
def Answered : Prop := ∃ a, s.answer env = .ok a

/-- A login admits a user and lets them in. -/
structure SignsIn (a : Attempt) (user : User) : Prop where
  answered : Answered env s
  attempt : attemptOf env s.before.toDirectory s.request = some a
  admitted : Admitted env s.before.toDirectory a user
  action : enforcedAction env s.draws s.before.toDirectory a user = .ALLOW

/-- A login admits a user and asks for more. -/
structure AsksForMore (a : Attempt) (user : User) (challenge : MfaChallenge) : Prop where
  answered : Answered env s
  attempt : attemptOf env s.before.toDirectory s.request = some a
  admitted : Admitted env s.before.toDirectory a user
  challenge : ∃ deniedReason, challenge = challengeRow env s.draws user.userId a.applicationId
    (enforcedAction env s.draws s.before.toDirectory a user) (decisionOf env s.draws) deniedReason

/-- A step-up is completed. -/
structure StepsUp (challenge : MfaChallenge) : Prop where
  answered : Answered env s
  request : stepUpChallenge s.request = some challenge.challengeId
  opened : OpenChallenge s.before.toArtefacts s.draws.now challenge.challengeId challenge
  factor : (factor env s.before.toArtefacts challenge s.request).isSome
  access : hasApplicationAccess s.before.toDirectory challenge.userId challenge.applicationId = true

/-- A callback code is exchanged for a session. -/
structure Redeems (row : AuthCode) (stored : IdpSession) (user : User) : Prop where
  answered : Answered env s
  request : ∃ body, s.request = .exchangeCode body ∧
    Redeemable env s.before s.draws.now body.code row stored user

/-- A session is given a nonce to enroll a passkey with. -/
structure OpensSession (row : IdpSession) : Prop where
  answered : Answered env s
  request : ∃ authorization, s.request = .sessionOptions authorization ∧
    Enrolling env s.before.toArtefacts s.draws.now authorization row
  owner : ∃ user, s.before.users.get row.userId = some user ∧ user.enabled = true
  none : s.before.hasPasskey row.userId = false

/-- A passkey is enrolled through a session. -/
structure EnrollsSession (row : IdpSession) (verified : VerifiedRegistration) : Prop where
  answered : Answered env s
  request : ∃ authorization body nonce, s.request = .sessionVerify authorization body ∧
    Enrolling env s.before.toArtefacts s.draws.now authorization row ∧
    row.webauthnChallenge = some nonce ∧
    Storable env s.before.toArtefacts body.credential nonce verified

/-- An activation code is issued. -/
structure Issues (userId issuedBy : String) : Prop where
  answered : Answered env s
  request : ∃ op, s.request = .admin op (.issueActivationCode userId) ∧ op.userId = issuedBy
  owner : ∃ user, s.before.users.get userId = some user ∧ user.enabled = true

/-- An activation code is given a nonce to enroll a passkey with. -/
structure OpensCode (row : ActivationCode) : Prop where
  answered : Answered env s
  request : ∃ body user, s.request = .activationOptions body ∧
    OpenCode env s.before.toArtefacts s.draws.now body.code row ∧
    s.before.users.get row.userId = some user ∧ user.enabled = true ∧
    passwordMatches env body.password (some user.passwordHash) = true

/-- A passkey is enrolled through an activation code. -/
structure EnrollsCode (row : ActivationCode) (verified : VerifiedRegistration) : Prop where
  answered : Answered env s
  request : ∃ body nonce, s.request = .activationVerify body ∧
    OpenCode env s.before.toArtefacts s.draws.now body.code row ∧
    row.webauthnChallenge = some nonce ∧
    Storable env s.before.toArtefacts body.credential nonce verified

/-- Why a statement on the artefacts is executed. -/
inductive Executes : ArtefactWrite → Prop where
  | signedIn {a : Attempt} {user : User} (event : SignsIn env s a user) :
      Executes (.insertSession (sessionRow env s.draws user.userId a.applicationId
        (offersPasskey env s.draws s.before.toArtefacts user.userId)))
  | signedInCode {a : Attempt} {user : User} {target : String} (event : SignsIn env s a user) :
      Executes (.insertAuthCode (authCodeRow env s.draws user.userId a.applicationId target))
  | challenged {a : Attempt} {user : User} {challenge : MfaChallenge}
      (event : AsksForMore env s a user challenge) : Executes (.insertChallenge challenge)
  | counted {credentialId : String} {signCount : ℤ} :
      Executes (.setSignCount credentialId signCount)
  | completed {challenge : MfaChallenge} (event : StepsUp env s challenge) :
      Executes (.consumeChallenge challenge.challengeId s.draws.now)
  | steppedUp {challenge : MfaChallenge} (event : StepsUp env s challenge) :
      Executes (.insertSession (sessionRow env s.draws challenge.userId challenge.applicationId
        false))
  | steppedUpCode {challenge : MfaChallenge} {target : String} (event : StepsUp env s challenge) :
      Executes (.insertAuthCode (authCodeRow env s.draws challenge.userId challenge.applicationId
        target))
  | challengeNonce {challengeId : String} {nonce : Bytes} {mode : WebAuthnCeremonyMode} :
      Executes (.setChallengeNonce challengeId nonce mode)
  | redeemed {row : AuthCode} {stored : IdpSession} {user : User}
      (event : Redeems env s row stored user) : Executes (.consumeAuthCode row.codeHash s.draws.now)
  | rotated {row : AuthCode} {stored : IdpSession} {user : User}
      (event : Redeems env s row stored user) :
      Executes (.insertSession (rotatedSession env s.draws stored))
  | replaced {row : AuthCode} {stored : IdpSession} {user : User}
      (event : Redeems env s row stored user) : Executes (.deleteSession stored.tokenHash)
  | loggedOut {authorization : Option String} {row : IdpSession}
      (hrequest : s.request = .logout authorization)
      (htoken : ∃ raw, bearerToken env authorization = some raw ∧
        s.before.sessions.get (hashSessionToken env raw) = some row) :
      Executes (.deleteSession row.tokenHash)
  | sessionNonce {row : IdpSession} (event : OpensSession env s row) :
      Executes (.setSessionNonce row.tokenHash (some s.draws.nonce))
  | enrolledSession {row : IdpSession} {verified : VerifiedRegistration}
      (event : EnrollsSession env s row verified) :
      Executes (.insertCredential (credentialRow row.userId verified))
  | lapsed {row : IdpSession} {verified : VerifiedRegistration}
      (event : EnrollsSession env s row verified) : Executes (.lapseOffer row.tokenHash)
  | cleared {row : IdpSession} {verified : VerifiedRegistration}
      (event : EnrollsSession env s row verified) : Executes (.setSessionNonce row.tokenHash none)
  | superseded {userId issuedBy : String} (event : Issues env s userId issuedBy) :
      Executes (.supersedeActivationCodes userId s.draws.now)
  | issued {userId issuedBy : String} (event : Issues env s userId issuedBy) :
      Executes (.insertActivationCode (activationRow env s.draws userId issuedBy))
  | codeNonce {row : ActivationCode} (event : OpensCode env s row) :
      Executes (.setActivationNonce row.codeHash s.draws.nonce)
  | enrolledCode {row : ActivationCode} {verified : VerifiedRegistration}
      (event : EnrollsCode env s row verified) :
      Executes (.insertCredential (credentialRow row.userId verified))
  | consumedCode {row : ActivationCode} {verified : VerifiedRegistration}
      (event : EnrollsCode env s row verified) :
      Executes (.consumeActivationCode row.codeHash s.draws.later)

variable {env} {s}

theorem SignsIn.isLogin {a : Attempt} {user : User} (h : SignsIn env s a user) :
    s.request.isLogin = true := by
  have hattempt := h.attempt
  cases hrequest : s.request <;> simp [hrequest, attemptOf, Request.isLogin] at hattempt ⊢

namespace Served

/-- A request that wrote something answered, with one of the effects. -/
theorem effect_of_mem {w : Write} (h : w ∈ s.writes env) :
    ∃ a, s.answer env = .ok a ∧ Effect env s.draws s.before s.request a (s.writes env) := by
  cases hanswer : s.answer env with
  | error e =>
      rw [writes_of_error hanswer] at h
      cases h
  | ok a => exact ⟨a, rfl, effect hanswer⟩

theorem executes_sessionWrites {userId applicationId : String} {mayEnroll : Bool}
    {target : Option String} {w : ArtefactWrite}
    (hsession : Executes env s
      (.insertSession (sessionRow env s.draws userId applicationId mayEnroll)))
    (hcode : ∀ target, Executes env s
      (.insertAuthCode (authCodeRow env s.draws userId applicationId target)))
    (h : .artefact w ∈ sessionWrites env s.draws userId applicationId mayEnroll target) :
    Executes env s w := by
  simp only [sessionWrites, List.mem_append, List.mem_cons, List.not_mem_nil, or_false,
    reduceCtorEq, false_or, Write.artefact.injEq, Option.mem_toList, Option.map_eq_some_iff] at h
  rcases h with rfl | ⟨target, -, rfl⟩
  · exact hsession
  · exact hcode target

theorem executes_factor {db : Artefacts} {challenge : MfaChallenge} {request : Request}
    {pre : List Write} {w : ArtefactWrite} (hfactor : factor env db challenge request = some pre)
    (h : .artefact w ∈ pre) : Executes env s w := by
  obtain rfl | ⟨credentialId, signCount, rfl⟩ := factor_writes hfactor
  · cases h
  · simp only [List.mem_singleton, Write.artefact.injEq] at h
    rw [h]
    exact .counted

/-- **Every statement has its event.** -/
theorem executes {w : ArtefactWrite} (h : .artefact w ∈ s.writes env) : Executes env s w := by
  obtain ⟨a, hanswer, heffect⟩ := effect_of_mem h
  generalize hrequest : s.request = request at heffect
  generalize s.writes env = ws at heffect h
  cases heffect with
  | silent | loggedOutNobody => cases h
  | login _ hlogin =>
      rw [← hrequest] at hlogin
      cases hlogin with
      | refused => cases h
      | allowed hattempt hadmitted haction =>
          have event : SignsIn env s _ _ := ⟨⟨_, hanswer⟩, hattempt, hadmitted, haction⟩
          exact executes_sessionWrites (.signedIn event) (fun _ => .signedInCode event) h
      | challenged hattempt hadmitted haction | denied hattempt hadmitted haction =>
          simp only [List.mem_singleton, Write.artefact.injEq] at h
          rw [h, ← haction]
          exact .challenged ⟨⟨_, hanswer⟩, hattempt, hadmitted, _, rfl⟩
      | blocked => cases h
  | steppedUp hstep hopen hfactor haccess =>
      rename_i challengeId challenge pre
      have hkey : challenge.challengeId = challengeId := Table.key_of_get hopen.found
      subst hkey
      have event : StepsUp env s challenge := by
        rw [← hrequest] at hstep hfactor
        exact ⟨⟨_, hanswer⟩, hstep, hopen, by simp [hfactor], haccess⟩
      rcases List.mem_append.mp h with h | h
      · exact executes_factor hfactor h
      · rcases List.mem_cons.mp h with h | h
        · cases h
          exact .completed event
        · exact executes_sessionWrites (.steppedUp event) (fun _ => .steppedUpCode event) h
  | stepUpDenied _ _ hfactor => exact executes_factor hfactor h
  | challengeOptions =>
      simp only [List.mem_singleton, Write.artefact.injEq] at h
      rw [h]
      exact .challengeNonce
  | exchanged hredeemable =>
      have event : Redeems env s _ _ _ := ⟨⟨_, hanswer⟩, _, hrequest, hredeemable⟩
      simp only [exchangeWrites, List.mem_cons, List.not_mem_nil, or_false,
        Write.artefact.injEq] at h
      rcases h with rfl | rfl | rfl
      · exact .redeemed event
      · exact .rotated event
      · exact .replaced event
  | loggedOut htoken =>
      simp only [List.mem_singleton, Write.artefact.injEq] at h
      rw [h]
      exact .loggedOut hrequest htoken
  | sessionOptions henrolling howner henabled hnone =>
      simp only [List.mem_singleton, Write.artefact.injEq] at h
      rw [h]
      exact .sessionNonce ⟨⟨_, hanswer⟩, ⟨_, hrequest, henrolling⟩, ⟨_, howner, henabled⟩, hnone⟩
  | sessionVerified henrolling hnonce hstorable =>
      have event : EnrollsSession env s _ _ :=
        ⟨⟨_, hanswer⟩, _, _, _, hrequest, henrolling, hnonce, hstorable⟩
      simp only [sessionVerifyWrites, List.mem_cons, List.not_mem_nil, or_false,
        Write.artefact.injEq] at h
      rcases h with rfl | rfl | rfl
      · exact .enrolledSession event
      · exact .lapsed event
      · exact .cleared event
  | activationOptions hopen howner henabled hpassword =>
      simp only [List.mem_singleton, Write.artefact.injEq] at h
      rw [h]
      exact .codeNonce ⟨⟨_, hanswer⟩, _, _, hrequest, hopen, howner, henabled, hpassword⟩
  | activationVerified hopen hnonce hstorable =>
      have event : EnrollsCode env s _ _ :=
        ⟨⟨_, hanswer⟩, _, _, hrequest, hopen, hnonce, hstorable⟩
      simp only [activationVerifyWrites, List.mem_cons, List.not_mem_nil, or_false,
        Write.artefact.injEq] at h
      rcases h with rfl | rfl
      · exact .enrolledCode event
      · exact .consumedCode event
  | issued howner hown henabled =>
      rename_i op userId user response
      have hkey : user.userId = userId := Table.key_of_get howner
      subst hkey
      have event : Issues env s user.userId op.userId :=
        ⟨⟨_, hanswer⟩, ⟨op, hrequest, rfl⟩, ⟨user, howner, henabled⟩⟩
      simp only [issueWrites, List.mem_cons, List.not_mem_nil, or_false,
        Write.artefact.injEq] at h
      rcases h with rfl | rfl
      · exact .superseded event
      · exact .issued event
  | edited _ _ path =>
      obtain ⟨_, edit, hedit, -⟩ := path.mem h
      cases hedit
  | founded _ path =>
      obtain ⟨_, edit, hedit, -⟩ := path.mem h
      cases hedit

end Served

end RbaIdp
