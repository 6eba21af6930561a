import RbaIdp.Web

/-!
# The hosted login page

`hosted_boot` of `web/context.py` computes what the page of `GET /login` knows, and
`static/login.js` posts from it: the form, and the two panels of a step-up.  The
page and the service each look at the redirect asked for, and each resolve where the
login comes from.
-/

namespace RbaIdp

open Relational Program

/-- The parameters of a page's URL, as `query_params.get` reads them. -/
structure PageQuery where
  clientId : Option String
  redirectUri : Option String
  country : Option String
  asn : Option String
  simulationTicket : Option String
  next : Option String

/-- The look of a tenant's page. -/
structure Branding where
  displayName : String
  logoUrl : Option String
  primary : String
  accent : String
deriving DecidableEq

/-- What the page knows. -/
structure HostedBoot where
  console : Bool
  /-- The page knows the application by its public id only. -/
  clientId : Option String
  applicationName : Option String
  tenantName : Option String
  unknownApplication : Bool
  ipAddress : String
  country : Option String
  asn : Option String
  next : Option String
  redirectUri : Option String
  simulated : Bool
  simulationTicket : Option String
  mockOtp : Bool
  look : String
  branding : Option Branding
deriving DecidableEq

/-- `_safe_next` -/
def safeNext (value : Option String) : Option String :=
  value.filter fun path => "/admin".toList.isPrefixOf path.toList

/-- The redirect the page asks for: the registered URI, unless the query names
another one. -/
def pageRedirect (registered requested : Option String) : Option String :=
  (nonEmpty registered).filter fun uri =>
    (nonEmpty requested).isNone || requested == some uri

/-- The enabled application a page is for. -/
def pageApplication (db : Directory) (query : PageQuery) (console : Bool) : Option Application :=
  let client := strip (query.clientId.getD "")
  if console || client == "" then none
  else (db.applications.first? fun app => app.clientId == some client).filter Application.enabled

variable (env : Env)

/-- The signals a page's query claims, and the ticket it passes on.  Only a signed
ticket changes the signals where clients are not trusted. -/
def pageClaims (request : HttpRequest) (query : PageQuery) :
    App ((Option String × Option String) × Option String) :=
  if env.settings.trustClientReportedIp then pure ((query.country, query.asn), none)
  else do
    let ticket ← verifyTicket env query.simulationTicket request.receivedAt
    pure ((ticket.bind SimulatedSignals.country, ticket.bind SimulatedSignals.asn),
      ticket.bind fun _ => query.simulationTicket)

/-- `hosted_boot` -/
def hostedBoot (request : HttpRequest) (query : PageQuery) (console : Bool) : App HostedBoot := do
  let (app, tenant) ← transaction do
    let app ← read fun db => pageApplication db.toDirectory query console
    let tenant ← read fun db => app.bind fun app => db.tenants.get app.tenantId
    pure (app, tenant)
  let ip := scoredIp (clientIp env request) env.settings.privateIpIsHome
  let ((country, asn), ticket) ← pageClaims env request query
  let signals := resolveLoginSignals env ip country asn
  pure {
    console := console
    clientId := app.map fun _ => strip (query.clientId.getD "")
    applicationName := if console then some "Consola RokuSec" else app.map Application.name
    tenantName := tenant.map Tenant.displayName
    unknownApplication := !console && app.isNone
    ipAddress := ip
    country := signals.country
    asn := signals.asn
    next := (safeNext query.next).or (if console then some "/admin" else none)
    redirectUri := pageRedirect (app.bind Application.redirectUri) query.redirectUri
    simulated := signals.simulated
    simulationTicket := ticket
    mockOtp := env.settings.mockOtpEnabled
    look :=
      if console then "console"
      else if (tenant.map Tenant.loginStyle) == some "tenant" then "tenant" else "rokusec"
    branding := tenant.map fun tenant =>
      ⟨tenant.displayName, tenant.logoUrl, tenant.primaryColour, tenant.accentColour⟩ }

/-! ## What the page posts -/

/-- What a person puts into the form, and what `deviceHints` reads off the browser. -/
structure LoginForm where
  email : String
  password : String
  deviceType : Option String
  os : Option String
  browser : Option String
  userAgent : Option String

/-- The body of the form on an application's page, posted to `/login`. -/
def loginPayload (boot : HostedBoot) (form : LoginForm) : LoginBody where
  email := form.email
  password := form.password
  ipAddress := boot.ipAddress
  country := boot.country
  asn := boot.asn
  deviceType := form.deviceType
  os := form.os
  browser := form.browser
  userAgent := form.userAgent
  -- the service goes by the client id
  applicationId := ""
  clientId := boot.clientId
  redirectUri := nonEmpty boot.redirectUri
  simulationTicket := nonEmpty boot.simulationTicket

/-- A request that may sign somebody in to an application. -/
inductive SignIn where
  | login (body : LoginBody)
  | webauthn (body : MfaWebAuthnVerifyRequest)
  | otp (body : MfaVerifyRequest)

/-- What a person does on the page to sign in. -/
inductive PageStep where
  | submit (form : LoginForm)
  | passkey (challengeId : String) (credential : Credential)
  | otp (challengeId code : String)

/-- The post `login.js` makes of a step. -/
def PageStep.signIn (boot : HostedBoot) : PageStep → SignIn
  | submit form => .login (loginPayload boot form)
  | passkey challengeId credential =>
      .webauthn ⟨challengeId, credential, nonEmpty boot.redirectUri⟩
  | otp challengeId code => .otp ⟨challengeId, code, nonEmpty boot.redirectUri⟩

variable (d : Draws)

def SignIn.post (request : HttpRequest) : SignIn → App LoginResponse
  | login body => postLogin env d request body
  | webauthn body => postMfaWebauthnVerify env d body
  | otp body => postMfaVerify env d body

end RbaIdp
