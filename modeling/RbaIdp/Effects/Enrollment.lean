import RbaIdp.Effects.Login

/-!
# What sessions and enrollment write

The requests that come with a bearer token, a callback code or an activation
code.  For every request there is the condition under which it goes through, as
a structure that names what was checked, and the statements it then executes.
-/

namespace RbaIdp

open Relational Program

variable (env : Env)

/-! ## Conditions -/

/-- A callback code that buys its session a new token. -/
structure Redeemable (db : Db) (now : Time) (code : String) (row : AuthCode) (stored : IdpSession)
    (user : User) : Prop where
  found : db.authCodes.get (hashSessionToken env code) = some row
  unconsumed : row.consumedAt = none
  unexpired : now < row.expiresAt
  session : db.sessions.get row.sessionHash = some stored
  live : now < stored.expiresAt
  owner : db.users.get row.userId = some user
  enabled : user.enabled = true

/-- A bearer token of a live session of an enabled user. -/
structure Bearer (db : Db) (now : Time) (authorization : Option String) (row : IdpSession)
    (user : User) : Prop where
  token : ∃ raw, bearerToken env authorization = some raw ∧
    db.sessions.get (hashSessionToken env raw) = some row
  live : now < row.expiresAt
  owner : db.users.get row.userId = some user
  enabled : user.enabled = true

/-- A bearer token of a session whose enrollment offer is open. -/
structure Enrolling (db : Artefacts) (now : Time) (authorization : Option String)
    (row : IdpSession) : Prop where
  token : ∃ raw, bearerToken env authorization = some raw ∧
    db.sessions.get (hashSessionToken env raw) = some row
  live : now < row.expiresAt
  offered : ∃ enrollUntil, row.enrollUntil = some enrollUntil ∧ now < enrollUntil

variable {env} in
theorem Enrolling.mem {db : Artefacts} {now : Time} {authorization : Option String}
    {row : IdpSession} (h : Enrolling env db now authorization row) : row ∈ db.sessions := by
  obtain ⟨raw, -, hget⟩ := h.token
  exact Table.mem_of_get hget

/-- A registration that verifies and whose credential is new. -/
structure Storable (db : Artefacts) (credential : Credential) (nonce : Bytes)
    (verified : VerifiedRegistration) : Prop where
  verifies : env.lib.verifyRegistration credential nonce = some verified
  new : db.webauthnCredentials.get verified.credentialId = none

/-- An activation code that can still be used. -/
structure OpenCode (db : Artefacts) (now : Time) (code : String) (row : ActivationCode) :
    Prop where
  found : db.activationCodes.get (hashCode env code) = some row
  unconsumed : row.consumedAt = none
  unexpired : now < row.expiresAt

/-! ## Statements -/

/-- The session that takes the place of a redeemed one. -/
def rotatedSession (d : Draws) (stored : IdpSession) : IdpSession where
  tokenHash := hashSessionToken env d.token
  userId := stored.userId
  applicationId := stored.applicationId
  expiresAt := stored.expiresAt
  enrollUntil := none
  webauthnChallenge := none

def exchangeWrites (d : Draws) (row : AuthCode) (stored : IdpSession) : List Write :=
  [.artefact (.consumeAuthCode row.codeHash d.now),
    .artefact (.insertSession (rotatedSession env d stored)),
    .artefact (.deleteSession stored.tokenHash)]

def credentialRow (userId : String) (verified : VerifiedRegistration) : WebAuthnCredential :=
  ⟨verified.credentialId, userId, verified.credentialPublicKey, verified.signCount⟩

def sessionVerifyWrites (row : IdpSession) (verified : VerifiedRegistration) : List Write :=
  [.artefact (.insertCredential (credentialRow row.userId verified)),
    .artefact (.lapseOffer row.tokenHash), .artefact (.setSessionNonce row.tokenHash none)]

def activationVerifyWrites (d : Draws) (row : ActivationCode) (verified : VerifiedRegistration) :
    List Write :=
  [.artefact (.insertCredential (credentialRow row.userId verified)),
    .artefact (.consumeActivationCode row.codeHash d.later)]

def activationRow (d : Draws) (userId issuedBy : String) : ActivationCode where
  codeHash := hashCode env (newActivationCode d.code)
  userId := userId
  issuedBy := issuedBy
  expiresAt := d.now + seconds env.settings.activationTtlSeconds
  consumedAt := none
  webauthnChallenge := none

def issueWrites (d : Draws) (userId issuedBy : String) : List Write :=
  [.artefact (.supersedeActivationCodes userId d.now),
    .artefact (.insertActivationCode (activationRow env d userId issuedBy))]

/-! ## Rules -/

variable {env} {d : Draws} {E : World → Prop} {t : World}

theorem wp_exchangeCode {body : CallbackTokenRequest} {Q : CallbackTokenResponse → World → Prop}
    (hok : ∀ row stored user t', Redeemable env t.db d.now body.code row stored user →
      t'.writes = t.writes ++ exchangeWrites env d row stored →
      Q ⟨⟨d.token, stored.expiresAt⟩, userPublic user⟩ t')
    (herror : ∀ t' : World, t'.writes = t.writes → E t') :
    (exchangeCode env d body).wp Q E t := by
  simp only [exchangeCode, onArtefacts, wp_transaction, wp_bind, wp_read, wp_require, wp_raiseIf,
    wp_execute, wp_pure]
  have hraised := herror t rfl
  refine ⟨fun _ => hraised, fun row hrow => ⟨fun _ => hraised, fun hcode => ⟨fun _ => hraised,
    fun stored hstored => ⟨fun _ => hraised, fun hlive => ⟨fun _ => hraised,
    fun user huser => ⟨fun _ => hraised, fun _ => ⟨fun _ => hraised, fun _ =>
    ⟨fun _ => hraised, fun _ => ?_⟩⟩⟩⟩⟩⟩⟩⟩
  obtain ⟨howner, henabled⟩ := Option.filter_eq_some_iff.mp huser
  rw [not_or] at hcode
  refine hok row stored user _ ⟨hrow, by simpa using hcode.1, not_le.mp hcode.2, hstored,
    not_le.mp hlive, howner, henabled⟩ ?_
  simp [exchangeWrites, rotatedSession]

theorem wp_loadSession {authorization : Option String}
    {Q : IdpSession × User × Finset String → World → Prop}
    (hok : ∀ row user, Bearer env t.db d.now authorization row user →
      Q (row, user, effectivePermissions t.db.toDirectory user.userId row.applicationId) t)
    (herror : E t) : (loadSession env d authorization).wp Q E t := by
  simp only [loadSession, wp_transaction, wp_bind, wp_read, wp_require, wp_raiseIf, wp_pure]
  refine ⟨fun _ => herror, fun raw hraw => ⟨fun _ => herror, fun row hrow => ⟨fun _ => herror,
    fun hlive => ⟨fun _ => herror, fun user huser => ?_⟩⟩⟩⟩
  obtain ⟨howner, henabled⟩ := Option.filter_eq_some_iff.mp huser
  exact hok row user ⟨⟨raw, hraw, hrow⟩, not_le.mp hlive, howner, henabled⟩

theorem wp_logout {authorization : Option String} {Q : Unit → World → Prop}
    (hok : ∀ row t', (∃ raw, bearerToken env authorization = some raw ∧
        t.db.sessions.get (hashSessionToken env raw) = some row) →
      t'.writes = t.writes ++ [.artefact (.deleteSession row.tokenHash)] → Q () t')
    (hnobody : (∀ raw, bearerToken env authorization = some raw →
      t.db.sessions.get (hashSessionToken env raw) = none) → Q () t)
    (herror : ∀ t' : World, t'.writes = t.writes → E t') :
    (logout env authorization).wp Q E t := by
  simp only [logout, onArtefacts, wp_ifSome, wp_transaction, wp_bind, wp_read, wp_execute]
  refine ⟨fun hnone => hnobody (by simp [hnone]), fun raw hraw => ⟨fun hnone => hnobody ?_,
    fun row hrow => ⟨fun _ => herror _ rfl, fun _ => hok row _ ⟨raw, hraw, hrow⟩ rfl⟩⟩⟩
  intro other hother
  rw [← Option.some.inj (hraw.symm.trans hother)]
  exact hnone

theorem wp_enrollingSession {authorization : Option String} {Q : IdpSession → World → Prop}
    (hok : ∀ row, Enrolling env t.db.toArtefacts d.now authorization row → Q row t)
    (herror : E t) : (enrollingSession env d authorization).wp Q E t := by
  simp only [enrollingSession, wp_bind, wp_read, wp_require, wp_raiseIf, wp_pure]
  refine ⟨fun _ => herror, fun raw hraw => ⟨fun _ => herror, fun row hrow => ⟨fun _ => herror,
    fun hlive => ⟨fun _ => herror, fun enrollUntil huntil => ⟨fun _ => herror, fun hopen => ?_⟩⟩⟩⟩⟩
  exact hok row ⟨⟨raw, hraw, hrow⟩, not_le.mp hlive, enrollUntil, huntil, not_le.mp hopen⟩

theorem wp_storeCredential {userId : String} {nonce : Bytes} {credential : Credential}
    {Q : Unit → World → Prop}
    (hok : ∀ verified t', Storable env t.db.toArtefacts credential nonce verified →
      t'.writes = t.writes ++ [.artefact (.insertCredential (credentialRow userId verified))] →
      Q () t')
    (herror : E t) : (storeCredential env userId nonce credential).wp Q E t := by
  simp only [storeCredential, onArtefacts, wp_bind, wp_require, wp_read, wp_raiseIf, wp_execute]
  refine ⟨fun _ => herror, fun verified hverified => ⟨fun _ => herror, fun hnew =>
    ⟨fun _ => herror, fun _ => hok verified _ ⟨hverified, by simpa using hnew⟩ rfl⟩⟩⟩

theorem wp_sessionOptions {authorization : Option String}
    {Q : PasskeyOptionsResponse → World → Prop}
    (hok : ∀ row user response t', Enrolling env t.db.toArtefacts d.now authorization row →
      t.db.users.get row.userId = some user → user.enabled = true →
      t.db.hasPasskey row.userId = false →
      t'.writes = t.writes ++ [.artefact (.setSessionNonce row.tokenHash (some d.nonce))] →
      Q response t')
    (herror : ∀ t' : World, t'.writes = t.writes → E t') :
    (sessionOptions env d authorization).wp Q E t := by
  simp only [sessionOptions, onArtefacts, wp_transaction, wp_bind]
  refine wp_enrollingSession (fun row hrow => ?_) (herror _ rfl)
  simp only [wp_bind, wp_read, wp_require, wp_ite, wp_execute, wp_raise, wp_pure]
  refine ⟨fun _ => herror _ rfl, fun user huser => ⟨fun _ => ⟨fun _ => herror _ rfl,
    fun _ => herror _ rfl⟩, fun hnone => ⟨fun _ => herror _ rfl, fun _ => ?_⟩⟩⟩
  obtain ⟨howner, henabled⟩ := Option.filter_eq_some_iff.mp huser
  have hkey : user.userId = row.userId := Table.key_of_get howner
  rw [hkey] at hnone
  exact hok row user _ _ hrow howner henabled (by simpa using hnone) rfl

theorem wp_sessionVerify {authorization : Option String} {body : PasskeyVerifyRequest}
    {Q : Unit → World → Prop}
    (hok : ∀ row nonce verified t', Enrolling env t.db.toArtefacts d.now authorization row →
      row.webauthnChallenge = some nonce →
      Storable env t.db.toArtefacts body.credential nonce verified →
      t'.writes = t.writes ++ sessionVerifyWrites row verified → Q () t')
    (herror : ∀ t' : World, t'.writes = t.writes → E t') :
    (sessionVerify env d authorization body).wp Q E t := by
  simp only [sessionVerify, onArtefacts, wp_transaction, wp_bind]
  refine wp_enrollingSession (fun row hrow => ?_) (herror _ rfl)
  rw [wp_require]
  refine ⟨fun _ => herror _ rfl, fun nonce hnonce => ?_⟩
  refine wp_storeCredential (fun verified t₁ hstorable hwrites => ?_) (herror _ rfl)
  simp only [wp_execute]
  refine ⟨fun _ => herror _ rfl, fun _ => ⟨fun _ => herror _ rfl, fun _ => ?_⟩⟩
  refine hok row nonce verified _ hrow hnonce hstorable ?_
  simp [hwrites, sessionVerifyWrites]

theorem openCode_eq_some {db : Artefacts} {code : String} {row : ActivationCode}
    (h : openCode env d db code = some row) : OpenCode env db d.now code row := by
  obtain ⟨hfound, hopen⟩ := Option.filter_eq_some_iff.mp h
  simp only [Bool.and_eq_true, Option.isNone_iff_eq_none, decide_eq_true_eq] at hopen
  exact ⟨hfound, hopen.1, hopen.2⟩

theorem wp_activationOptions {body : ActivationOptionsRequest}
    {Q : PasskeyOptionsResponse → World → Prop}
    (hok : ∀ row user response t', OpenCode env t.db.toArtefacts d.now body.code row →
      t.db.users.get row.userId = some user → user.enabled = true →
      passwordMatches env body.password (some user.passwordHash) = true →
      t'.writes = t.writes ++ [.artefact (.setActivationNonce row.codeHash d.nonce)] →
      Q response t')
    (herror : ∀ t' : World, t'.writes = t.writes → E t') :
    (activationOptions env d body).wp Q E t := by
  simp only [activationOptions, wp_transaction, wp_bind, wp_read]
  have hrefused : (verifyPassword env body.password none >>= fun _ =>
      (Program.raise INVALID_CODE : App PasskeyOptionsResponse)).wp Q
        (fun t' => E { t with calls := t'.calls }) t := by
    simp only [verifyPassword, wp_bind, wp_call, wp_pure, wp_raise]
    exact herror _ rfl
  cases hcode : openCode env d t.db.toArtefacts body.code with
  | none => exact hrefused
  | some row =>
      cases huser : (t.db.users.get row.userId).filter User.enabled with
      | none =>
          simp only [Option.bind_some, huser]
          exact hrefused
      | some user =>
          obtain ⟨howner, henabled⟩ := Option.filter_eq_some_iff.mp huser
          simp only [Option.bind_some, huser, verifyPassword, onArtefacts, wp_bind, wp_call,
            wp_pure, wp_raiseIf, wp_execute]
          refine ⟨fun _ => herror _ rfl, fun hmatched => ⟨fun _ => herror _ rfl, fun _ => ?_⟩⟩
          exact hok row user _ _ (openCode_eq_some hcode) howner henabled (by simpa using hmatched)
            rfl

theorem wp_activationVerify {body : ActivationVerifyRequest} {Q : Unit → World → Prop}
    (hok : ∀ row nonce verified t', OpenCode env t.db.toArtefacts d.now body.code row →
      row.webauthnChallenge = some nonce →
      Storable env t.db.toArtefacts body.credential nonce verified →
      t'.writes = t.writes ++ activationVerifyWrites d row verified → Q () t')
    (herror : ∀ t' : World, t'.writes = t.writes → E t') :
    (activationVerify env d body).wp Q E t := by
  simp only [activationVerify, onArtefacts, wp_transaction, wp_bind, wp_read, wp_require]
  refine ⟨fun _ => herror _ rfl, fun row hrow => ⟨fun _ => herror _ rfl, fun nonce hnonce => ?_⟩⟩
  refine wp_storeCredential (fun verified t₁ hstorable hwrites => ?_) (herror _ rfl)
  rw [wp_execute]
  refine ⟨fun _ => herror _ rfl, fun _ => ?_⟩
  refine hok row nonce verified _ (openCode_eq_some hrow) hnonce hstorable ?_
  simp [hwrites, activationVerifyWrites]

theorem wp_issueCode {user : User} {issuedBy : String}
    {Q : ActivationCodeResponse → World → Prop}
    (hok : ∀ response t', t'.writes = t.writes ++ issueWrites env d user.userId issuedBy →
      Q response t')
    (herror : ∀ t' : World, E t') : (issueCode env d user issuedBy).wp Q E t := by
  simp only [issueCode, onArtefacts, wp_bind, wp_execute, wp_pure]
  refine ⟨fun _ => herror _, fun _ => ⟨fun _ => herror _, fun _ => hok _ _ ?_⟩⟩
  simp [issueWrites, activationRow]

end RbaIdp
