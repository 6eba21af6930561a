import RbaIdp.Db.Statements
import RbaIdp.Encoding.Json
import RbaIdp.Encoding.Url
import RbaIdp.Text

/-!
# What the services run in

The settings they read, the functions they take from elsewhere, what one
request draws from the outside, and the monad they are written in.

`Library` collects code that is not in the repository: the Unicode tables behind
`str.lower` and friends, SHA-256, bcrypt, the WebAuthn verifiers, the GeoIP
databases and what the shared contracts compute.  Nothing is assumed of
them; what a development needs of one it states.

`Draws` is what a request takes from its surroundings while it runs: the clock,
fresh secrets and ids, the cached policy of the tenant and the risk engine's
answer.  A request reads the clock at most three times: `timestamp` is the
reading a risk request carries, `now` the one its own rows are dated by, `later`
the last one.
-/

namespace RbaIdp

open Relational

/-! ## Contracts -/

inductive EngineMode where
  | OFF
  | MONITOR
  | ACTIVE
deriving DecidableEq

inductive BasePolicy where
  | PASSWORD_ONLY
  | ALWAYS_MFA
deriving DecidableEq

structure LevelToAction where
  LOW : Action
  MEDIUM : Action
  HIGH : Action
  CRITICAL : Action
deriving DecidableEq

structure ScoreBand where
  max : ℚ
  level : RiskLevel
deriving DecidableEq

structure TenantPolicy where
  tenantId : String
  policyVersion : String
  basePolicy : BasePolicy
  engineMode : EngineMode
  scoreToLevel : List ScoreBand
  levelToAction : LevelToAction
  fallbackAction : Action
deriving DecidableEq

structure RiskEvaluateRequest where
  eventId : String
  tenantId : String
  applicationId : String
  userId : String
  timestamp : Time
  ipAddress : String
  asn : Option String
  country : Option String
  deviceType : Option String
  os : Option String
  browser : Option String
  loginSuccessful : Bool
  userAgent : Option String
  deviceId : Option String
  stepUpRequired : Bool
  simulated : Bool
deriving DecidableEq

structure RiskEvaluateResponse where
  eventId : String
  riskScore : ℚ
  riskLevel : RiskLevel
  action : Action
  enforcedAction : Action
  engineMode : EngineMode
  reasons : List Reason
  fallback : Bool
deriving DecidableEq

structure LoginConfirmRequest where
  eventId : String
  tenantId : String
deriving DecidableEq

/-! ## Settings -/

/-- The values `PDP_UNAVAILABLE_ACTION` can take: allowing or blocking during an
outage is not expressible. -/
inductive PdpUnavailableAction where
  | REQUIRE_MFA
  | REAUTHENTICATE
deriving DecidableEq

def PdpUnavailableAction.toAction : PdpUnavailableAction → Action
  | REQUIRE_MFA => .REQUIRE_MFA
  | REAUTHENTICATE => .REAUTHENTICATE

/-- A parsed IP address; an IPv6 address may carry a scope id. -/
inductive IpAddress where
  | v4 (ip : ℕ)
  | v6 (ip : ℕ) (scopeId : Option String)
deriving DecidableEq

/-- A parsed network: its address and the length of its prefix. -/
inductive IpNetwork where
  | v4 (base prefixLength : ℕ)
  | v6 (base prefixLength : ℕ)

/-- The values of `CLIENT_IP_HEADER`. -/
inductive ClientIpHeader where
  | X_FORWARDED_FOR
  | CLOUDFRONT_VIEWER_ADDRESS
deriving DecidableEq

structure Settings where
  /-- `trusted_proxies()`, parsed -/
  trustedProxies : List IpNetwork
  clientIpHeader : ClientIpHeader
  trustClientReportedIp : Bool
  /-- signs simulation tickets; empty for none -/
  simulationSecret : String
  simulationTtlSeconds : ℤ
  privateIpIsHome : Bool
  reportFailedLogins : Bool
  pdpUnavailableAction : PdpUnavailableAction
  sessionTtlSeconds : ℤ
  challengeTtlSeconds : ℤ
  callbackTtlSeconds : ℤ
  mockOtpEnabled : Bool
  mockOtpCode : String
  enrollWindowSeconds : ℤ
  activationTtlSeconds : ℤ
  seedBankRedirectUri : String
  seedKazeRedirectUri : String
  seedPasswordSuffix : String

/-! ## Code from elsewhere -/

/-- What the GeoIP databases hold on an address. -/
structure GeoRecord where
  isoCode : Option String
  autonomousSystemNumber : Option ℕ

/-- What a verified registration yields; the id is already base64url. -/
structure VerifiedRegistration where
  credentialId : String
  credentialPublicKey : Bytes
  signCount : ℤ

structure Library where
  /-- `str.lower` -/
  lower : String → String
  /-- `str.upper` -/
  upper : String → String
  /-- `str.isalnum` of one character -/
  isAlnum : Char → Bool
  /-- `str.isalpha` of one character -/
  isAlpha : Char → Bool
  /-- `str.isdigit` of one character -/
  isDigit : Char → Bool
  /-- hexadecimal SHA-256 of the UTF-8 text -/
  sha256 : String → String
  /-- `bcrypt.checkpw`, with `none` for the `ValueError` of a malformed digest -/
  checkpw : String → String → Option Bool
  /-- the digest compared against when there is no user -/
  dummyHash : String
  /-- `verify_registration_response`, with `none` for any of its exceptions -/
  verifyRegistration : Credential → Bytes → Option VerifiedRegistration
  /-- `verify_authentication_response`: the new signature counter -/
  verifyAuthentication : Credential → Bytes → Bytes → ℤ → Option ℤ
  /-- the GeoIP databases -/
  geoip : IpAddress → GeoRecord
  /-- scheme and authority of a URL, as `urlsplit` finds them -/
  originOf : String → String × String
  /-- the tables of `urllib.parse`, and the authorities it refuses -/
  urlRules : Encoding.Url.Rules
  /-- `TenantBranding(display_name=...)`, the other fields at their defaults -/
  defaultBranding : String → TenantBranding
  /-- HMAC-SHA256 under a key -/
  hmacSha256 : Bytes → Bytes → Bytes
  /-- `json.dumps(..., separators=(",", ":"))` -/
  jsonDumps : Encoding.Json → String
  /-- `json.loads` of bytes -/
  jsonLoads : Bytes → Except Encoding.PyException Encoding.Json
  /-- the decimal value of a character, for `int` of a text -/
  decimal : Char → Option ℕ
  baseAction : BasePolicy → Action
  outcomeFromAction : Action → LoginOutcome

structure Env where
  settings : Settings
  lib : Library

/-! ## What one request draws -/

structure Draws where
  timestamp : Time
  now : Time
  later : Time
  /-- `new_session_token()` -/
  token : String
  /-- `secrets.token_urlsafe(32)` of a callback, or the characters of a new activation code -/
  code : String
  /-- the nonce of a WebAuthn ceremony -/
  nonce : Bytes
  /-- `uuid4()` of a challenge -/
  challengeId : String
  /-- `uuid4()` of a risk event -/
  eventId : String
  /-- `uuid4().hex[:12]` -/
  hex12 : String
  /-- `new_client_id()`, drawn for an application -/
  newClientId : String → String
  /-- `hash_password`, salted afresh -/
  hashPassword : String → String
  /-- what the policy cache answers for the tenant of the login -/
  policy : Option TenantPolicy
  /-- the risk engine's answer, `none` for `PdpUnavailable` -/
  pdp : Option RiskEvaluateResponse
  /-- did the PDP accept the policy of a new tenant? -/
  policySaved : Bool
  /-- did the PDP take the confirmation of a step-up, or did the client raise? -/
  confirmed : Bool

/-! ## The monad of the services -/

structure HTTPException where
  statusCode : ℕ
  detail : String
deriving DecidableEq

/-- Calls whose number or content is observable. -/
inductive Call where
  /-- one bcrypt comparison -/
  | checkpw (password digest : String)
  | evaluate (request : RiskEvaluateRequest) (reply : Option RiskEvaluateResponse)
  | confirm (request : LoginConfirmRequest)
  | putPolicy (policy : TenantPolicy) (saved : Bool)
deriving DecidableEq

/-- A service method: it reads and changes the database, raises HTTP errors and
calls out. -/
abbrev App := Program Db Write Call HTTPException

/-- Where a program is. -/
abbrev World := Trace Db Write Call

def raise {α : Type} (statusCode : ℕ) (detail : String) : App α :=
  Program.raise ⟨statusCode, detail⟩

/-- What no handler catches. -/
def internalError : HTTPException := ⟨500, "Internal Server Error"⟩

/-- Execute a statement on the directory. -/
def onDirectory (w : DirectoryWrite) : App Unit := Program.execute (.directory w)

/-- Execute a statement on the sign-in artefacts. -/
def onArtefacts (w : ArtefactWrite) : App Unit := Program.execute (.artefact w)

/-! ## A local deployment

The defaults of `config.py`, and stand-ins for the code from elsewhere that tell
apart what the real code tells apart on plain ASCII input: digests that keep
their text, a verifier that accepts every well-formed answer, counters for
secrets.  Statements about fixed runs use them. -/

def Settings.default : Settings where
  trustedProxies := []
  clientIpHeader := .X_FORWARDED_FOR
  trustClientReportedIp := true
  simulationSecret := ""
  simulationTtlSeconds := 10 * 60
  privateIpIsHome := true
  reportFailedLogins := true
  pdpUnavailableAction := .REQUIRE_MFA
  sessionTtlSeconds := 8 * 3600
  challengeTtlSeconds := 5 * 60
  callbackTtlSeconds := 2 * 60
  mockOtpEnabled := false
  mockOtpCode := "000000"
  enrollWindowSeconds := 10 * 60
  activationTtlSeconds := 15 * 60
  seedBankRedirectUri := "http://localhost:8002/callback"
  seedKazeRedirectUri := "http://localhost:8003/callback"
  seedPasswordSuffix := "demo"

/-- The tables of `urllib.parse`.  Of an authority only the brackets are checked. -/
def standInRules : Encoding.Url.Rules where
  usesNetloc := fun scheme => ["", "ftp", "http", "gopher", "nntp", "telnet", "imap", "wais",
    "file", "mms", "https", "shttp", "snews", "prospero", "rtsp", "rtsps", "rtspu", "rsync", "svn",
    "svn+ssh", "sftp", "nfs", "git", "git+ssh", "ws", "wss"].contains (String.ofList scheme)
  usesParams := fun scheme => ["", "ftp", "hdl", "prospero", "http", "imap", "https", "shttp",
    "rtsp", "rtsps", "rtspu", "sip", "sips", "mms", "sftp", "tel"].contains (String.ofList scheme)
  netlocOk := fun netloc => netloc.contains '[' == netloc.contains ']'

/-- A JSON text without escapes, a whole number or a null. -/
def dumpScalar : Encoding.Json → String
  | .int n => toString n
  | .str text => "\"" ++ text ++ "\""
  | _ => "null"

/-- `json.dumps` of a flat object. -/
def dumpFlat : Encoding.Json → String
  | .obj fields => "\x7b" ++ ",".intercalate (fields.map fun field =>
      dumpScalar (.str field.1) ++ ":" ++ dumpScalar field.2) ++ "\x7d"
  | value => dumpScalar value

def loadScalar : List Char → Encoding.Json
  | '"' :: text => .str (String.ofList text.dropLast)
  | 'n' :: _ => .null
  | digits => .int (digits.foldl (fun n c => n * 10 + (c.toNat - '0'.toNat)) 0 : ℕ)

/-- `json.loads` of a flat object in ASCII, whose numbers are not negative and whose texts
have no commas. -/
def loadFlat (bytes : Bytes) : Encoding.Json :=
  let text := bytes.map fun byte => Char.ofNat byte.toNat
  .obj ((splitList ',' (text.drop 1).dropLast).map fun field =>
    let (key, value) := Encoding.Url.cut ':' field
    (String.ofList (key.drop 1).dropLast, loadScalar value))

def Library.standIn : Library where
  lower := fun text => String.ofList (text.toList.map Char.toLower)
  upper := fun text => String.ofList (text.toList.map Char.toUpper)
  isAlnum := Char.isAlphanum
  isAlpha := Char.isAlpha
  isDigit := Char.isDigit
  sha256 := fun text => "sha256:" ++ text
  checkpw := fun password digest => some (digest == "bcrypt:" ++ password)
  dummyHash := "bcrypt:idp-2-dummy-not-a-real-password"
  verifyRegistration := fun credential nonce => credential.id.map fun id => ⟨id, nonce, 0⟩
  verifyAuthentication := fun _ _ _ signCount => some (signCount + 1)
  geoip := fun _ => ⟨none, none⟩
  originOf := fun url =>
    let (scheme, _, rest) := partition url ':'
    (scheme, (partition (String.ofList (rest.toList.drop 2)) '/').1)
  urlRules := standInRules
  defaultBranding := fun name => ⟨name, "rokusec", none, "#1466E5", "#152953"⟩
  hmacSha256 := fun key message => key ++ message
  jsonDumps := dumpFlat
  jsonLoads := fun bytes => .ok (loadFlat bytes)
  decimal := fun c => if c.isDigit then some (c.toNat - '0'.toNat) else none
  baseAction
    | .PASSWORD_ONLY => .ALLOW
    | .ALWAYS_MFA => .REQUIRE_MFA
  outcomeFromAction
    | .ALLOW => .AUTHENTICATED
    | .REQUIRE_MFA => .MFA_REQUIRED
    | .REAUTHENTICATE => .REAUTH_REQUIRED
    | .BLOCK => .BLOCKED

/-- A local deployment. -/
def Env.standIn : Env := ⟨.default, .standIn⟩

/-- What the `n`th request draws, at second `n`; the risk engine does not answer. -/
def Draws.numbered (n : ℕ) : Draws where
  timestamp := seconds n
  now := seconds n
  later := seconds n
  token := "token-" ++ toString n
  code := "code-" ++ toString n
  nonce := [UInt8.ofNat n]
  challengeId := "challenge-" ++ toString n
  eventId := "event-" ++ toString n
  hex12 := "hex-" ++ toString n
  newClientId := fun applicationId => "rk_" ++ applicationId
  hashPassword := fun password => "bcrypt:" ++ password
  policy := none
  pdp := none
  policySaved := true
  confirmed := true

/-- The same, with a risk engine that finds the login usual. -/
def Draws.usual (n : ℕ) : Draws :=
  { Draws.numbered n with
    pdp := some {
      eventId := "event-" ++ toString n
      riskScore := 1 / 10
      riskLevel := .LOW
      action := .ALLOW
      enforcedAction := .ALLOW
      engineMode := .ACTIVE
      reasons := []
      fallback := false } }

/-- One tenant, with one application for its staff and one user on the staff. -/
def Directory.standIn : Directory :=
  { Directory.empty with
    tenants := .insert .empty {
      tenantId := "acme"
      name := "Acme"
      isPlatform := false
      consoleApplicationId := none
      adminGroupId := none
      displayName := "Acme"
      loginStyle := "rokusec"
      logoUrl := none
      primaryColour := "#1466E5"
      accentColour := "#152953"
      createdAt := 0 }
    applications := .insert .empty {
      applicationId := "portal"
      clientId := some "rk_portal"
      tenantId := "acme"
      name := "Portal"
      enabled := true
      redirectUri := some "https://portal"
      alwaysPasskey := none
      createdAt := 0 }
    users := .insert .empty {
      userId := "usr_ana"
      tenantId := "acme"
      email := "ana@acme"
      passwordHash := "bcrypt:clave"
      enabled := true
      isAdmin := false
      alwaysPasskey := none
      createdAt := 0
      lastLoginAt := none }
    groups := .insert .empty ⟨"staff", "acme", "Staff", "", 0⟩
    groupMemberships := .insert .empty ⟨"staff", "usr_ana"⟩
    roles := .insert .empty ⟨"member", "acme", "portal", "member", "", 0⟩
    groupRoles := .insert .empty ⟨"staff", "member"⟩ }

/-- A database in which nobody has signed in yet. -/
def Db.standIn : Db := { Directory.standIn, Artefacts.empty with }

/-- The same, with the portal as the console of the tenant, and its staff as the
group that may read there. -/
def Db.standInConsole : Db :=
  { Db.standIn with
    toDirectory := [DirectoryWrite.setTenantAnchors "acme" "portal" "staff",
      .insertPermission ⟨"portal_read", "portal", "admin", "read", ""⟩,
      .insertRolePermission ⟨"member", "portal_read"⟩].foldl (fun db w => w.effect db)
        Directory.standIn }

end RbaIdp
