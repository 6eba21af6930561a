import Mathlib.Data.Finset.Sort
import Mathlib.Data.String.Basic
import RbaIdp.Authz
import RbaIdp.CallbackUrl
import RbaIdp.Geo
import RbaIdp.Tokens

/-!
# The login service

`services/login.py`.  An application login takes its tenant from the
application, a console login from the operator's email domain; either way the
email is looked up only inside that tenant.  What is applied is the risk
engine's `enforced_action`, never the bare verdict.

Every `session_scope` block of the source is a `transaction` here, and the
calls outside of them stay outside.
-/

namespace RbaIdp

open Relational Program

def ACCESS_DENIED_DETAIL : String := "user is not granted access to this application"

def noSession : HTTPException := ⟨401, "missing or expired session"⟩

def noChallenge : HTTPException := ⟨400, "unknown or expired challenge"⟩

def noCode : HTTPException := ⟨400, "unknown or expired code"⟩

/-- `match_redirect_uri`: exact match against the registered URI, and no
redirect without one. -/
def matchRedirectUri (registered requested : Option String) : Option String :=
  match registered with
  | none => none
  | some registered =>
      if registered = "" then none
      else
        match requested with
        | none => some registered
        | some requested =>
            if requested = "" ∨ requested = registered then some registered else none

/-- `_floor`: always asking for the passkey turns an ALLOW into a step-up. -/
def floor (action : Action) (alwaysPasskey : Bool) : Action :=
  if alwaysPasskey = true ∧ action = .ALLOW then .REQUIRE_MFA else action

/-- `_challenge_risk`: the decision a challenge was opened for, put into an answer. -/
def challengeRisk (challenge : MfaChallenge) (response : LoginResponse) : LoginResponse :=
  { response with
    eventId := challenge.eventId
    action := some challenge.action
    riskScore := challenge.riskScore
    riskLevel := challenge.riskLevel
    reasons := challenge.reasons }

/-- `_Attempt`: one credential check, whichever door it came through. -/
structure Attempt extends ClientSignals where
  tenantId : String
  applicationId : String
  email : String
  password : String
  requestedRedirect : Option String
  registeredRedirect : Option String
  /-- Console logins answer every failure alike. -/
  uniformFailures : Bool
  deviceCookie : Option String

/-- The attempt of an application login: the application names the tenant. -/
def loginAttempt (body : LoginRequest) (deviceCookie : Option String) (app : Application) :
    Attempt where
  toClientSignals := body.toClientSignals
  tenantId := app.tenantId
  applicationId := body.applicationId
  email := body.email
  password := body.password
  requestedRedirect := body.redirectUri
  registeredRedirect := app.redirectUri
  uniformFailures := false
  deviceCookie := deviceCookie

/-- The attempt of a console login: the email's domain names the tenant. -/
def consoleAttempt (body : ConsoleLoginRequest) (deviceCookie : Option String) (tenant : Tenant)
    (console : String) : Attempt where
  toClientSignals := body.toClientSignals
  tenantId := tenant.tenantId
  applicationId := console
  email := body.email
  password := body.password
  requestedRedirect := none
  registeredRedirect := none
  uniformFailures := true
  deviceCookie := deviceCookie

/-- What the credential check found. -/
inductive Checked where
  | answered (response : LoginResponse)
  | wrongPassword (userId : String)
  | passed (userId : String) (alwaysPasskey : Bool)

def actionValue : Action → String
  | .ALLOW => "ALLOW"
  | .REQUIRE_MFA => "REQUIRE_MFA"
  | .REAUTHENTICATE => "REAUTHENTICATE"
  | .BLOCK => "BLOCK"

variable (env : Env) (d : Draws)

/-! ## Sessions, callbacks and challenges -/

/-- `_has_passkey` -/
def hasPasskey (userId : String) : App Bool :=
  transaction do read fun db => db.hasPasskey userId

/-- `_has_second_factor`: a passkey or, in the test suite only, the mock OTP. -/
def hasSecondFactor (userId : String) : App Bool :=
  if env.settings.mockOtpEnabled then pure true else hasPasskey userId

/-- `_persist_session` -/
def persistSession (userId applicationId : String) (mayEnroll : Bool) : App SessionToken := do
  let expiresAt := d.now + seconds env.settings.sessionTtlSeconds
  let user ← read fun db => db.users.get userId
  ifSome user fun _ => onDirectory (.setUserLastLogin userId d.now)
  onArtefacts (.insertSession {
    tokenHash := hashSessionToken env d.token
    userId := userId
    applicationId := applicationId
    expiresAt := expiresAt
    enrollUntil :=
      if mayEnroll then some (d.now + seconds env.settings.enrollWindowSeconds) else none
    webauthnChallenge := none })
  pure ⟨d.token, expiresAt⟩

/-- `_persist_callback` -/
def persistCallback (userId applicationId sessionHash : String)
    (requestedRedirect registeredRedirect : Option String) : App (Option Callback) :=
  match matchRedirectUri registeredRedirect requestedRedirect with
  | none => pure none
  | some target => do
      onArtefacts (.insertAuthCode {
        codeHash := hashSessionToken env d.code
        sessionHash := sessionHash
        userId := userId
        applicationId := applicationId
        redirectUri := target
        expiresAt := d.later + seconds env.settings.callbackTtlSeconds
        consumedAt := none })
      let callback : Callback := ⟨target, d.code⟩
      -- nothing catches the `ValueError` of `append_query`, and the transaction is rolled back
      raiseIf ((callback.url env.lib.urlRules).isNone = true) internalError
      pure (some callback)

/-- `_create_session_with_callback` -/
def createSessionWithCallback (userId applicationId : String)
    (requestedRedirect registeredRedirect : Option String) (mayEnroll : Bool) :
    App (SessionToken × Option Callback) :=
  transaction do
    let token ← persistSession env d userId applicationId mayEnroll
    let redirectTo ← persistCallback env d userId applicationId
      (hashSessionToken env token.token) requestedRedirect registeredRedirect
    pure (token, redirectTo)

/-- The challenge row `_create_challenge` adds. -/
def challengeRow (userId applicationId : String) (action : Action)
    (decision : Option RiskEvaluateResponse) (deniedReason : Option String) : MfaChallenge where
  challengeId := d.challengeId
  userId := userId
  applicationId := applicationId
  eventId := decision.map RiskEvaluateResponse.eventId
  action := action
  riskScore := decision.map RiskEvaluateResponse.riskScore
  riskLevel := decision.map RiskEvaluateResponse.riskLevel
  reasons := (decision.map RiskEvaluateResponse.reasons).getD []
  expiresAt := d.now + seconds env.settings.challengeTtlSeconds
  consumedAt := if deniedReason.isSome then some d.now else none
  webauthnChallenge := none
  webauthnMode := none
  deniedReason := deniedReason

/-- `_create_challenge` -/
def createChallenge (userId applicationId : String) (action : Action)
    (decision : Option RiskEvaluateResponse) (deniedReason : Option String) : App String := do
  transaction do
    onArtefacts (.insertChallenge
      (challengeRow env d userId applicationId action decision deniedReason))
  pure d.challengeId

/-- `_open_challenge` -/
def openChallenge (challengeId : String) : App MfaChallenge := do
  let challenge ← read fun db => db.mfaChallenges.get challengeId
  let challenge ← require challenge noChallenge
  raiseIf (challenge.consumedAt.isSome ∨ challenge.expiresAt ≤ d.now) noChallenge
  pure challenge

/-! ## Enforcing a decision -/

/-- `_degraded_decision`: stand in for a risk engine that does not answer. -/
def degradedDecision (engineMode : EngineMode) : RiskEvaluateResponse :=
  let action := env.settings.pdpUnavailableAction.toAction
  { eventId := d.eventId
    riskScore := 0
    riskLevel := .HIGH
    action := action
    enforcedAction := action
    engineMode := engineMode
    reasons := [{
      code := "pdp_unavailable"
      signal := "system"
      contribution := none
      detail := "risk engine did not respond; degraded to " ++ actionValue action ++
        " without a score" }]
    fallback := true }

/-- The answer of `_enforce` to a decision it carries out. -/
def enforcedResponse (userId : String) (action : Action)
    (decision : Option RiskEvaluateResponse) : LoginResponse where
  outcome := env.lib.outcomeFromAction action
  userId := some userId
  eventId := decision.map RiskEvaluateResponse.eventId
  action := some action
  riskScore := decision.map RiskEvaluateResponse.riskScore
  riskLevel := decision.map RiskEvaluateResponse.riskLevel
  reasons := (decision.map RiskEvaluateResponse.reasons).getD []

/-- Did the engine itself judge this login usual?  Not a monitor-mode ALLOW of
a risky verdict, not a fallback, not an engine that is off. -/
def judgedUsual (decision : Option RiskEvaluateResponse) : Bool :=
  match decision with
  | none => false
  | some decision => decision.action == .ALLOW && !decision.fallback

/-- The `passkey_offer` of an allowed login. -/
def passkeyOffer (userId : String) (decision : Option RiskEvaluateResponse) : App Bool :=
  if judgedUsual decision then do
    let enrolled ← hasPasskey userId
    pure (!enrolled)
  else pure false

/-- `_enforce` -/
def enforce (userId : String) (attempt : Attempt) (action : Action)
    (decision : Option RiskEvaluateResponse) : App LoginResponse :=
  match action with
  | .ALLOW => do
      let offer ← passkeyOffer userId decision
      let (token, redirectTo) ← createSessionWithCallback env d userId attempt.applicationId
        attempt.requestedRedirect attempt.registeredRedirect offer
      pure { enforcedResponse env userId action decision with
        session := some token
        redirectTo := redirectTo
        passkeyOffer := offer }
  | .REQUIRE_MFA | .REAUTHENTICATE => do
      let secondFactor ← hasSecondFactor env userId
      if secondFactor then do
        let challengeId ← createChallenge env d userId attempt.applicationId action decision none
        pure { enforcedResponse env userId action decision with
          challengeId := some challengeId
          unusual := match decision with
            | none => false
            | some decision => !decision.fallback && decision.action != .ALLOW }
      else do
        let _ ← createChallenge env d userId attempt.applicationId action decision
          (some "no_second_factor")
        pure {
          outcome := .SECOND_FACTOR_MISSING
          userId := some userId
          eventId := decision.map RiskEvaluateResponse.eventId
          action := some action }
  | .BLOCK => pure (enforcedResponse env userId action decision)

/-- The request the risk engine gets about an attempt. -/
def evaluateRequest (userId : String) (attempt : Attempt) (ip : String) (signals : LoginSignals)
    (loginSuccessful stepUpRequired : Bool) : RiskEvaluateRequest where
  eventId := d.eventId
  tenantId := attempt.tenantId
  applicationId := attempt.applicationId
  userId := userId
  timestamp := d.timestamp
  ipAddress := ip
  asn := signals.asn
  country := signals.country
  deviceType := attempt.deviceType
  os := attempt.os
  browser := attempt.browser
  loginSuccessful := loginSuccessful
  userAgent := attempt.userAgent
  deviceId := deviceId env attempt.tenantId attempt.deviceCookie
  stepUpRequired := stepUpRequired
  simulated := signals.simulated

/-- `_report_failed_login`: best effort, its answer discarded. -/
def reportFailedLogin (userId : String) (attempt : Attempt) (ip : String)
    (signals : LoginSignals) : App Unit :=
  when (env.settings.reportFailedLogins = true) do
    Program.call (.evaluate (evaluateRequest env d userId attempt ip signals false false) d.pdp)

/-! ## The two doors -/

/-- The user of an email inside a tenant. -/
def userByEmail (db : Directory) (tenantId email : String) : Option User :=
  db.users.first? fun u => u.tenantId == tenantId && u.email == env.lib.lower (strip email)

/-- Does this login always ask for the passkey? -/
def asksForPasskey (db : Directory) (user : User) (applicationId : String) : Bool :=
  user.alwaysPasskey.getD false ||
    ((db.applications.get applicationId).bind Application.alwaysPasskey).getD false

/-- The block of `_authenticate` that checks the credentials. -/
def checkCredentials (attempt : Attempt) : App Checked :=
  transaction do
    let user ← read fun db => userByEmail env db.toDirectory attempt.tenantId attempt.email
    match user.filter User.enabled with
    | none => do
        let _ ← verifyPassword env attempt.password none
        pure (.answered { outcome := .INVALID_CREDENTIALS })
    | some user => do
        let matched ← verifyPassword env attempt.password (some user.passwordHash)
        if matched then do
          let alwaysPasskey ← read fun db =>
            asksForPasskey db.toDirectory user attempt.applicationId
          let access ← read fun db =>
            hasApplicationAccess db.toDirectory user.userId attempt.applicationId
          if access then pure (.passed user.userId alwaysPasskey)
          else if attempt.uniformFailures then pure (.answered { outcome := .INVALID_CREDENTIALS })
          else pure (.answered {
            outcome := .ACCESS_DENIED
            userId := some user.userId
            detail := some ACCESS_DENIED_DETAIL })
        else pure (.wrongPassword user.userId)

def engineOff (policy : Option TenantPolicy) : Bool :=
  match policy with
  | none => false
  | some policy => policy.engineMode == .OFF

/-- `_authenticate` -/
def authenticate (attempt : Attempt) : App LoginResponse := do
  let checked ← checkCredentials env attempt
  let ip := scoredIp attempt.ipAddress env.settings.privateIpIsHome
  let signals := resolveLoginSignals env ip attempt.country attempt.asn
  match checked with
  | .answered response => pure response
  | .wrongPassword userId => do
      when (engineOff d.policy = false) (reportFailedLogin env d userId attempt ip signals)
      pure { outcome := .INVALID_CREDENTIALS }
  | .passed userId alwaysPasskey =>
      match d.policy.filter fun policy => policy.engineMode == .OFF with
      | some policy =>
          enforce env d userId attempt (floor (env.lib.baseAction policy.basePolicy) alwaysPasskey)
            none
      | none => do
          Program.call (.evaluate
            (evaluateRequest env d userId attempt ip signals true alwaysPasskey) d.pdp)
          let decision := d.pdp.getD
            (degradedDecision env d ((d.policy.map TenantPolicy.engineMode).getD .ACTIVE))
          enforce env d userId attempt (floor decision.enforcedAction alwaysPasskey) (some decision)

def login (body : LoginRequest) (deviceCookie : Option String) : App LoginResponse := do
  let app ← transaction do
    let app ← read fun db => db.applications.get body.applicationId
    require (app.filter Application.enabled) ⟨400, "unknown application"⟩
  authenticate env d (loginAttempt body deviceCookie app)

/-- `_console_of` -/
def consoleOf (db : Directory) (tenant : Option Tenant) : Option String :=
  tenant.bind fun tenant =>
    (tenant.consoleApplicationId.filter fun console => console != "").bind fun console =>
      ((db.applications.get console).filter fun app =>
        app.enabled && app.tenantId == tenant.tenantId).map Application.applicationId

def consoleLogin (body : ConsoleLoginRequest) (deviceCookie : Option String) :
    App LoginResponse := do
  let found ← transaction do
    let tenant ← read fun db => tenantForOperatorEmail env db.toDirectory body.email
    let console ← read fun db => consoleOf db.toDirectory tenant
    pure (tenant, console)
  match found with
  | (some tenant, some console) =>
      authenticate env d (consoleAttempt body deviceCookie tenant console)
  | _ => do
      let _ ← verifyPassword env body.password none
      pure { outcome := .INVALID_CREDENTIALS }

/-! ## Completing a step-up -/

/-- `_finish_challenge` -/
def finishChallenge (challenge : MfaChallenge) (redirectUri : Option String) :
    App LoginResponse := do
  let access ← read fun db =>
    hasApplicationAccess db.toDirectory challenge.userId challenge.applicationId
  if access then do
    let app ← read fun db => db.applications.get challenge.applicationId
    onArtefacts (.consumeChallenge challenge.challengeId d.now)
    let token ← persistSession env d challenge.userId challenge.applicationId false
    let redirectTo ← persistCallback env d challenge.userId challenge.applicationId
      (hashSessionToken env token.token) redirectUri (app.bind Application.redirectUri)
    pure (challengeRisk challenge {
      outcome := .AUTHENTICATED
      userId := some challenge.userId
      session := some token
      redirectTo := redirectTo })
  else pure (challengeRisk challenge {
    outcome := .ACCESS_DENIED
    userId := some challenge.userId
    detail := some ACCESS_DENIED_DETAIL })

/-- The tenant a completed step-up is confirmed for. -/
def challengeTenant (challenge : MfaChallenge) : App (Option String) :=
  read fun db => (db.applications.get challenge.applicationId).map Application.tenantId

/-- `HttpPdpClient.confirm`: the call is made, whatever becomes of it. -/
def confirm (request : LoginConfirmRequest) : App Unit := do
  Program.call (.confirm request)
  -- any exception does: the one caller swallows it
  raiseIf (d.confirmed = false) ⟨503, "PDP unavailable"⟩

/-- `_confirm_step_up`: best effort, after the session is committed. -/
def confirmStepUp (result : LoginResponse) (tenantId : Option String) : App Unit :=
  when (result.outcome = .AUTHENTICATED) do
    ifSome result.eventId fun eventId =>
      ifSome tenantId fun tenantId => attempt (confirm d ⟨eventId, tenantId⟩)

def verifyMfa (body : MfaVerifyRequest) : App LoginResponse := do
  -- a fixed code that passes any step-up must not exist in a deployment
  raiseIf (env.settings.mockOtpEnabled = false) ⟨404, "not found"⟩
  let (result, tenantId) ← transaction do
    let challenge ← openChallenge d body.challengeId
    if otpMatches body.code env.settings.mockOtpCode then do
      let result ← finishChallenge env d challenge body.redirectUri
      let tenantId ← challengeTenant challenge
      pure (result, tenantId)
    else pure ({ outcome := .INVALID_CREDENTIALS }, none)
  confirmStepUp d result tenantId
  pure result

def webauthnOptions (body : MfaWebAuthnOptionsRequest) : App MfaWebAuthnOptionsResponse :=
  transaction do
    let challenge ← openChallenge d body.challengeId
    let credIds ← read fun db =>
      (db.webauthnCredentials.select fun c => c.userId == challenge.userId).map
        WebAuthnCredential.credentialId
    raiseIf (credIds = []) ⟨400, "no passkey for this user"⟩
    onArtefacts (.setChallengeNonce challenge.challengeId d.nonce .GET)
    pure ⟨body.challengeId, .GET, ⟨d.nonce, credIds⟩⟩

/-- The passkey a WebAuthn answer is signed with and its new signature counter,
when the answer verifies for the challenge's user and nonce. -/
def assertion (db : Artefacts) (challenge : MfaChallenge) (nonce : Bytes)
    (credential : Credential) : Option (WebAuthnCredential × ℤ) := do
  let credId ← credential.id
  let stored ← (db.webauthnCredentials.get credId).filter fun c => c.userId == challenge.userId
  let newSignCount ←
    env.lib.verifyAuthentication credential nonce stored.publicKey stored.signCount
  return (stored, newSignCount)

def verifyWebauthn (body : MfaWebAuthnVerifyRequest) : App LoginResponse := do
  let (result, tenantId) ← transaction do
    let challenge ← openChallenge d body.challengeId
    -- an empty nonce is as good as none
    let nonce ← require (challenge.webauthnChallenge.filter fun nonce => !nonce.isEmpty) noChallenge
    raiseIf (challenge.webauthnMode ≠ some .GET) noChallenge
    let verified ← read fun db => assertion env db.toArtefacts challenge nonce body.credential
    match verified with
    | none => pure ({ outcome := .INVALID_CREDENTIALS }, none)
    | some (stored, newSignCount) => do
        onArtefacts (.setSignCount stored.credentialId newSignCount)
        let result ← finishChallenge env d challenge body.redirectUri
        let tenantId ← challengeTenant challenge
        pure (result, tenantId)
  confirmStepUp d result tenantId
  pure result

/-! ## Sessions -/

def userPublic (user : User) : UserPublic :=
  ⟨user.tenantId, user.userId, user.email, user.createdAt, user.isAdmin⟩

def exchangeCode (body : CallbackTokenRequest) : App CallbackTokenResponse :=
  transaction do
    let row ← read fun db => db.authCodes.get (hashSessionToken env body.code)
    let row ← require row noCode
    raiseIf (row.consumedAt.isSome ∨ row.expiresAt ≤ d.now) noCode
    let stored ← read fun db => db.sessions.get row.sessionHash
    let user ← read fun db => db.users.get row.userId
    let stored ← require stored noCode
    raiseIf (stored.expiresAt ≤ d.now) noCode
    let user ← require (user.filter User.enabled) noCode
    onArtefacts (.consumeAuthCode row.codeHash d.now)
    -- same session, new token: it cannot enroll a passkey
    onArtefacts (.insertSession {
      tokenHash := hashSessionToken env d.token
      userId := stored.userId
      applicationId := stored.applicationId
      expiresAt := stored.expiresAt
      enrollUntil := none
      webauthnChallenge := none })
    onArtefacts (.deleteSession stored.tokenHash)
    pure ⟨⟨d.token, stored.expiresAt⟩, userPublic user⟩

/-- `load_session`: a bearer token's session, user and effective permissions. -/
def loadSession (authorization : Option String) : App (IdpSession × User × Finset String) := do
  let raw ← require (bearerToken env authorization) noSession
  transaction do
    let row ← read fun db => db.sessions.get (hashSessionToken env raw)
    let row ← require row noSession
    raiseIf (row.expiresAt ≤ d.now) noSession
    let user ← read fun db => db.users.get row.userId
    let user ← require (user.filter User.enabled) noSession
    let permissions ← read fun db =>
      effectivePermissions db.toDirectory user.userId row.applicationId
    pure (row, user, permissions)

def getSession (authorization : Option String) : App SessionResponse := do
  let (row, user, permissions) ← loadSession env d authorization
  pure ⟨userPublic user, row.expiresAt, row.applicationId, permissions.sort (· ≤ ·)⟩

/-- What `GET /session` answers for a session. -/
def sessionResponse (dir : Directory) (row : IdpSession) (user : User) : SessionResponse :=
  ⟨userPublic user, row.expiresAt, row.applicationId,
    (effectivePermissions dir user.userId row.applicationId).sort (· ≤ ·)⟩

def logout (authorization : Option String) : App Unit :=
  ifSome (bearerToken env authorization) fun raw =>
    transaction do
      let row ← read fun db => db.sessions.get (hashSessionToken env raw)
      ifSome row fun row => onArtefacts (.deleteSession row.tokenHash)

end RbaIdp
