import RbaIdp.Services.Login

/-!
# Passkey enrollment

`services/enrollment.py`.  Two doors, and no third: a session marked by a
low-risk login may enroll one passkey, and an activation code an operator
issued may, together with the user's password.
-/

namespace RbaIdp

open Relational Program

def INVALID_CODE : HTTPException := ⟨400, "invalid or expired code"⟩

def NO_ENROLLMENT : HTTPException := ⟨403, "this session may not enroll a passkey"⟩

variable (env : Env) (d : Draws)

/-- `issue_activation_code`: any earlier unused code of the user stops working. -/
def issueCode (user : User) (issuedBy : String) : App ActivationCodeResponse := do
  onArtefacts (.supersedeActivationCodes user.userId d.now)
  let code := newActivationCode d.code
  let expiresAt := d.now + seconds env.settings.activationTtlSeconds
  onArtefacts (.insertActivationCode {
    codeHash := hashCode env code
    userId := user.userId
    issuedBy := issuedBy
    expiresAt := expiresAt
    consumedAt := none
    webauthnChallenge := none })
  pure ⟨user.userId, code, expiresAt⟩

/-- `_store_credential` -/
def storeCredential (userId : String) (nonce : Bytes) (credential : Credential) : App Unit := do
  let verified ← require (env.lib.verifyRegistration credential nonce)
    ⟨400, "passkey could not be verified"⟩
  let existing ← read fun db => db.webauthnCredentials.get verified.credentialId
  raiseIf (existing.isSome = true) ⟨409, "passkey already registered"⟩
  onArtefacts (.insertCredential {
    credentialId := verified.credentialId
    userId := userId
    publicKey := verified.credentialPublicKey
    signCount := verified.signCount })

/-! ## After a low-risk login -/

/-- `_enrolling_session` -/
def enrollingSession (authorization : Option String) : App IdpSession := do
  let raw ← require (bearerToken env authorization) noSession
  let row ← read fun db => db.sessions.get (hashSessionToken env raw)
  let row ← require row noSession
  raiseIf (row.expiresAt ≤ d.now) noSession
  let enrollUntil ← require row.enrollUntil NO_ENROLLMENT
  raiseIf (enrollUntil ≤ d.now) NO_ENROLLMENT
  pure row

def sessionOptions (authorization : Option String) : App PasskeyOptionsResponse :=
  transaction do
    let row ← enrollingSession env d authorization
    let user ← read fun db => db.users.get row.userId
    let user ← require (user.filter User.enabled) noSession
    let enrolled ← read fun db => db.hasPasskey user.userId
    if enrolled then do
      -- enrolled meanwhile: the offer was for a user with no passkey, and the error rolls
      -- its lapse back
      onArtefacts (.lapseOffer row.tokenHash)
      Program.raise NO_ENROLLMENT
    else do
      onArtefacts (.setSessionNonce row.tokenHash (some d.nonce))
      pure ⟨⟨d.nonce, user.userId, user.email⟩⟩

def sessionVerify (authorization : Option String) (body : PasskeyVerifyRequest) : App Unit :=
  transaction do
    let row ← enrollingSession env d authorization
    let nonce ← require row.webauthnChallenge ⟨400, "no enrollment in progress"⟩
    storeCredential env row.userId nonce body.credential
    onArtefacts (.lapseOffer row.tokenHash)
    onArtefacts (.setSessionNonce row.tokenHash none)

/-! ## With an activation code -/

/-- `_open_code` -/
def openCode (db : Artefacts) (code : String) : Option ActivationCode :=
  (db.activationCodes.get (hashCode env code)).filter fun row =>
    row.consumedAt.isNone && decide (d.now < row.expiresAt)

def activationOptions (body : ActivationOptionsRequest) : App PasskeyOptionsResponse :=
  transaction do
    let row ← read fun db => openCode env d db.toArtefacts body.code
    let user ← read fun db => row.bind fun row => db.users.get row.userId
    match row, user.filter User.enabled with
    | some row, some user => do
        let matched ← verifyPassword env body.password (some user.passwordHash)
        raiseIf (matched = false) INVALID_CODE
        onArtefacts (.setActivationNonce row.codeHash d.nonce)
        pure ⟨⟨d.nonce, user.userId, user.email⟩⟩
    | _, _ => do
        -- same answer, same bcrypt, for a bad code and a bad password
        let _ ← verifyPassword env body.password none
        Program.raise INVALID_CODE

def activationVerify (body : ActivationVerifyRequest) : App Unit :=
  transaction do
    let row ← read fun db => openCode env d db.toArtefacts body.code
    let row ← require row INVALID_CODE
    let nonce ← require row.webauthnChallenge INVALID_CODE
    storeCredential env row.userId nonce body.credential
    onArtefacts (.consumeActivationCode row.codeHash d.later)

end RbaIdp
