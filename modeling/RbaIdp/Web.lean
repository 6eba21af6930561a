import RbaIdp.Requests
import RbaIdp.Simulation

/-!
# The HTTP boundary

What `main.py` puts around the sign-in methods, and `web/context.py` and
`simulation.py` below it.  On the way in, a public client id becomes an
application id, and where clients are not trusted the signals of the body are
replaced by those of the request.  On the way out, the answer is redacted.
-/

namespace RbaIdp

open Relational Program

/-- What a handler reads of an HTTP request. -/
structure HttpRequest where
  /-- `request.client.host`, when there is a peer -/
  clientHost : Option String
  cloudfrontViewerAddress : Option String
  xForwardedFor : Option String
  /-- what `device_cookie` gives: the browser's cookie, or a fresh one -/
  deviceCookie : String
  /-- `time.time()` when the body is looked at -/
  receivedAt : Time

/-! ## Addresses as text -/

/-- The longest run of zero hextets, the first of several: where it starts and its
length. -/
def longestZeroRun (hextets : List String) : ℕ × ℕ :=
  let step := fun (acc : (ℕ × ℕ) × ℕ × ℕ) (h : String × ℕ) =>
    let (best, start, length) := acc
    if h.1 = "0" then
      let run := (if length = 0 then h.2 else start, length + 1)
      (if best.2 < run.2 then run else best, run)
    else (best, 0, 0)
  (hextets.zipIdx.foldl step ((0, 0), 0, 0)).1

/-- `_compress_hextets` -/
def compressHextets (hextets : List String) : List String :=
  let (start, length) := longestZeroRun hextets
  if length ≤ 1 then hextets
  else
    let padded := if start + length = hextets.length then hextets ++ [""] else hextets
    let compressed := padded.take start ++ "" :: padded.drop (start + length)
    if start = 0 then "" :: compressed else compressed

/-- `str(ip)` -/
def ipText : IpAddress → String
  | .v4 ip =>
      ".".intercalate ([ip / 256 ^ 3, ip / 256 ^ 2, ip / 256, ip].map fun n => toString (n % 256))
  | .v6 ip scopeId =>
      let hextets := (List.range 8).map fun n =>
        String.ofList (Nat.toDigits 16 (ip / 65536 ^ (7 - n) % 65536))
      ":".intercalate (compressHextets hextets) ++ (scopeId.map fun s => "%" ++ s).getD ""

/-- `_parse_ip`, before the address is turned back into text -/
def parseIp (value : String) : Option IpAddress := ipAddress (strip value)

def IpNetwork.contains : IpNetwork → IpAddress → Bool
  | .v4 base prefixLength, .v4 ip => inNetwork 32 base prefixLength ip
  | .v6 base prefixLength, .v6 ip _ => inNetwork 128 base prefixLength ip
  | _, _ => false

variable (env : Env)

/-! ## The client's address -/

/-- `_viewer_address`: the address, then the port, IPv6 unbracketed. -/
def viewerAddress (header : String) : Option IpAddress :=
  let (host, sep, port) := rpartition (strip header) ':'
  let bracket := fun c : Char => c == '[' || c == ']'
  if !sep || port.toList.isEmpty || !port.toList.all env.lib.isDigit then none
  else
    parseIp (String.ofList ((host.toList.dropWhile bracket).reverse.dropWhile bracket).reverse)

/-- Is an address one of the proxies'?  The source asks this of the text of an
address, which parses to that address. -/
def trusted (ip : IpAddress) : Bool := env.settings.trustedProxies.any fun net => net.contains ip

/-- `client_ip`: headers are believed only when the direct peer is a trusted proxy. -/
def clientIp (request : HttpRequest) : String :=
  let peer := (nonEmpty request.clientHost).getD "0.0.0.0"
  match parseIp peer with
  | none => peer
  | some peerIp =>
      if !trusted env peerIp then ipText peerIp
      else
        match env.settings.clientIpHeader with
        | .CLOUDFRONT_VIEWER_ADDRESS =>
            ipText ((viewerAddress env (request.cloudfrontViewerAddress.getD "")).getD peerIp)
        | .X_FORWARDED_FOR =>
            -- the right-most hop that is not itself a trusted proxy
            let hops := (split (request.xForwardedFor.getD "") ',').filterMap parseIp
            ipText ((hops.reverse.find? fun hop => !trusted env hop).getD peerIp)

/-! ## Simulation tickets -/

structure SimulatedSignals where
  country : Option String
  asn : Option String
deriving DecidableEq

/-- `time.time()` -/
def clock (now : Time) : ℚ := now / 1000000

/-- A signal as `normalize_country` and `normalize_asn` read it: a value that is
falsy is none, and of the others all but a text raise. -/
def signalText : Encoding.Json → Option (Option String)
  | .str text => some (some text)
  | value => if value.truthy then none else some none

/-- The signals of a ticket, as texts. -/
def signalTexts (signals : Simulation.SimulatedSignals) : Option SimulatedSignals := do
  let country ← signalText signals.country
  let asn ← signalText signals.asn
  return ⟨country, asn⟩

/-- What `verify_ticket` gives of a ticket, `none` where it or what uses it raises. -/
def ticketResult (ticket : Option String) (now : Time) : Option (Option SimulatedSignals) :=
  match Simulation.verifyTicket env.lib env.settings.simulationSecret ticket (clock now) with
  | .error _ => none
  | .ok none => some none
  | .ok (some signals) => (signalTexts signals).map some

/-- The signals of a ticket that is signed and has not expired. -/
def ticketSignals (ticket : Option String) (now : Time) : Option SimulatedSignals :=
  (ticketResult env ticket now).getD none

/-- `verify_ticket`, with the secret of the deployment -/
def verifyTicket (ticket : Option String) (now : Time) : App (Option SimulatedSignals) :=
  Program.require (ticketResult env ticket now) internalError

/-! ## Requests -/

/-- The body of `POST /login`. -/
structure LoginBody extends LoginRequest where
  clientId : Option String
  simulationTicket : Option String

/-- The body of `POST /console/login`. -/
structure ConsoleLoginBody extends ConsoleLoginRequest where
  simulationTicket : Option String

/-- `_resolve_client`: a client id nobody has stays unknown. -/
def resolveClient (body : LoginBody) : App LoginRequest :=
  match body.clientId with
  | none => pure body.toLoginRequest
  | some clientId => do
      let app ← transaction do
        read fun db => db.applications.first? fun app => app.clientId == some clientId
      pure { body.toLoginRequest with
        applicationId :=
          (nonEmpty (app.map Application.applicationId)).getD ("unknown:" ++ clientId) }

/-- `_observed`: score what the request shows, not what the body claims. -/
def observed (request : HttpRequest) (signals : ClientSignals) (ticket : Option String) :
    App ClientSignals :=
  if env.settings.trustClientReportedIp then pure signals
  else do
    let ticket ← verifyTicket env ticket request.receivedAt
    pure { signals with
      ipAddress := clientIp env request
      country := ticket.bind SimulatedSignals.country
      asn := ticket.bind SimulatedSignals.asn }

/-! ## Answers -/

/-- The one reason a browser may see. -/
def PUBLIC_REASON_CODES : List String := ["account_cooldown"]

def publicReasons (reasons : List Reason) : List Reason :=
  reasons.filter fun r => PUBLIC_REASON_CODES.contains r.code

/-- `_public`: no score, level, verdict or signal. -/
def publicResponse (result : LoginResponse) : LoginResponse :=
  { result with
    action := none
    riskScore := none
    riskLevel := none
    reasons := publicReasons result.reasons }

variable (d : Draws)

def postLogin (request : HttpRequest) (body : LoginBody) : App LoginResponse := do
  let resolved ← resolveClient body
  let signals ← observed env request resolved.toClientSignals body.simulationTicket
  let result ← login env d { resolved with toClientSignals := signals } (some request.deviceCookie)
  pure (publicResponse result)

def postConsoleLogin (request : HttpRequest) (body : ConsoleLoginBody) : App LoginResponse := do
  let signals ← observed env request body.toClientSignals body.simulationTicket
  let result ← consoleLogin env d { body.toConsoleLoginRequest with toClientSignals := signals }
    (some request.deviceCookie)
  pure (publicResponse result)

def postMfaVerify (body : MfaVerifyRequest) : App LoginResponse := do
  let result ← verifyMfa env d body
  pure (publicResponse result)

def postMfaWebauthnVerify (body : MfaWebAuthnVerifyRequest) : App LoginResponse := do
  let result ← verifyWebauthn env d body
  pure (publicResponse result)

/-- A login over HTTP, at either door. -/
inductive WebLogin where
  | app (body : LoginBody)
  | console (body : ConsoleLoginBody)

def WebLogin.simulationTicket : WebLogin → Option String
  | app body => body.simulationTicket
  | console body => body.simulationTicket

def WebLogin.post (request : HttpRequest) : WebLogin → App LoginResponse
  | app body => postLogin env d request body
  | console body => postConsoleLogin env d request body

/-- Somebody with Ana's password claims to be at home. -/
def claimsHome (password : String) : WebLogin :=
  .app {
    ipAddress := homeIp
    asn := some "7303"
    country := some "AR"
    deviceType := none
    os := none
    browser := none
    userAgent := none
    applicationId := "portal"
    email := "ana@acme"
    password := password
    redirectUri := none
    clientId := some "rk_portal"
    simulationTicket := none }

def fromAbroad : HttpRequest := ⟨some "192.0.2.50", none, some homeIp, "cookie", 0⟩

end RbaIdp
