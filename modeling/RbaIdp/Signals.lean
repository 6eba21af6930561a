import RbaIdp.Effects.Calls
import RbaIdp.Web

/-!
# Where clients are not trusted

A login's body may claim an address, a country and a network.  With
`trust_client_reported_ip` off none of the three reaches the risk engine: what is
scored is `scoredSignals`, a function of the settings, the HTTP request and the
ticket.
-/

namespace RbaIdp

open Relational Program

variable {env : Env} {d : Draws} {request : HttpRequest}

/-- The same login, with other claims about where it comes from. -/
def WebLogin.claiming (ipAddress : String) (country asn : Option String) : WebLogin → WebLogin
  | .app body => .app { body with
      ipAddress := ipAddress
      country := country
      asn := asn }
  | .console body => .console { body with
      ipAddress := ipAddress
      country := country
      asn := asn }

/-- What a risk request says of where a login comes from. -/
def RiskEvaluateRequest.signals (r : RiskEvaluateRequest) : String × LoginSignals :=
  (r.ipAddress, ⟨r.country, r.asn, r.simulated⟩)

theorem signals_evaluateRequest {userId ip : String} {attempt : Attempt} {signals : LoginSignals}
    {loginSuccessful stepUpRequired : Bool} :
    (evaluateRequest env d userId attempt ip signals loginSuccessful stepUpRequired).signals =
      (ip, signals) := rfl

variable (env request) in
/-- What is scored of a request where clients are not trusted. -/
def scoredSignals (ticket : Option String) : String × LoginSignals :=
  let claimed := ticketSignals env ticket request.receivedAt
  let ip := scoredIp (clientIp env request) env.settings.privateIpIsHome
  (ip, resolveLoginSignals env ip (claimed.bind SimulatedSignals.country)
    (claimed.bind SimulatedSignals.asn))

variable (env) in
/-- A ticket in a body is signed with the secret, and it is not too late for it. -/
def ValidTicket (ticket : Option String) (now : Time) : Prop :=
  ∃ text payload data, ticket = some text ∧ env.settings.simulationSecret ≠ "" ∧
    partition text '.' =
      (payload, true, Simulation.sign env.lib env.settings.simulationSecret payload) ∧
    Simulation.readPayload env.lib payload = .ok data ∧ clock now < data.2

theorem validTicket_of_signals {ticket : Option String} {now : Time} {s : SimulatedSignals}
    (h : ticketSignals env ticket now = some s) : ValidTicket env ticket now := by
  have hverified : ∃ signals, Simulation.verifyTicket env.lib env.settings.simulationSecret ticket
      (clock now) = .ok (some signals) := by
    unfold ticketSignals ticketResult at h
    split at h
    · cases h
    · cases h
    · next signals heq => exact ⟨signals, heq⟩
  obtain ⟨signals, hverified⟩ := hverified
  obtain ⟨payload, signature, data, hparts, hsigned, hdata, hlate⟩ :=
    Simulation.verifyTicket_eq_some hverified
  obtain ⟨hsecret, text, hticket, hsplit⟩ := Simulation.ticketParts_eq_some hparts
  exact ⟨text, payload, data, hticket, hsecret, by rw [hsplit, hsigned], hdata, hlate⟩

/-- Without claims an address has its own signals. -/
theorem resolveLoginSignals_none (ip : String) :
    resolveLoginSignals env ip none none =
      ⟨(lookupIp env ip).country, (lookupIp env ip).asn, false⟩ := by
  simp [resolveLoginSignals, normalizeCountry, normalizeAsn]

/-! ## The body's claims are dropped -/

/-- What stands of the body's signals after `_observed`. -/
theorem observed_eq (htrust : env.settings.trustClientReportedIp = false) (signals : ClientSignals)
    (ticket : Option String) :
    observed env request signals ticket = verifyTicket env ticket request.receivedAt >>=
      fun claimed => pure { signals with
        ipAddress := clientIp env request
        country := claimed.bind SimulatedSignals.country
        asn := claimed.bind SimulatedSignals.asn } := by
  simp [observed, htrust]

/-- Resolving a client id reads the database, and nothing else of the signals. -/
theorem post_claiming (htrust : env.settings.trustClientReportedIp = false) (body : WebLogin)
    (ipAddress : String) (country asn : Option String) :
    (body.claiming ipAddress country asn).post env d request = body.post env d request := by
  cases body with
  | app body =>
      simp only [WebLogin.claiming, WebLogin.post, postLogin, observed_eq htrust, resolveClient]
      refine Program.ext (funext fun t => ?_)
      cases body.clientId <;> rfl
  | console body =>
      simp only [WebLogin.claiming, WebLogin.post, postConsoleLogin, observed_eq htrust]

/-! ## What is scored -/

theorem callsIn_verifyTicket {C : Call → Prop} {ticket : Option String} {now : Time} :
    CallsIn C (verifyTicket env ticket now) :=
  callsIn_require

variable (env request) in
/-- The signals `_observed` lets through: the body's where clients are trusted, and
elsewhere those of the request and its ticket. -/
def observedSignals (signals : ClientSignals) (ticket : Option String) : ClientSignals :=
  if env.settings.trustClientReportedIp then signals
  else
    let claimed := ticketSignals env ticket request.receivedAt
    { signals with
      ipAddress := clientIp env request
      country := claimed.bind SimulatedSignals.country
      asn := claimed.bind SimulatedSignals.asn }

theorem observedSignals_eq (htrust : env.settings.trustClientReportedIp = false)
    (signals : ClientSignals) (ticket : Option String) :
    observedSignals env request signals ticket = { signals with
      ipAddress := clientIp env request
      country := (ticketSignals env ticket request.receivedAt).bind SimulatedSignals.country
      asn := (ticketSignals env ticket request.receivedAt).bind SimulatedSignals.asn } := by
  simp [observedSignals, htrust]

theorem observed_run {signals s : ClientSignals} {ticket : Option String} {t t' : World}
    (h : (observed env request signals ticket).run t = (.ok s, t')) :
    s = observedSignals env request signals ticket := by
  have hvalue : (observed env request signals ticket).wp
      (fun s _ => s = observedSignals env request signals ticket) (fun _ => True) t := by
    unfold observed observedSignals
    split
    · rfl
    · simp +contextual [verifyTicket, ticketSignals]
  exact wp_of_ok hvalue h

/-- What follows `_observed` works on the signals it lets through. -/
theorem callsIn_observed {α : Type} {C : Call → Prop} {signals : ClientSignals}
    {ticket : Option String} {f : ClientSignals → App α}
    (h : CallsIn C (f (observedSignals env request signals ticket))) :
    CallsIn C (observed env request signals ticket >>= f) := by
  refine callsIn_bind_of_run ?_ fun s t t' hrun => ?_
  · unfold observed
    split
    · exact callsIn_pure
    · exact callsIn_bind callsIn_verifyTicket fun _ => callsIn_pure
  · rw [observed_run hrun]
    exact h

/-- A login of an application makes the calls of an attempt with those signals. -/
theorem callsIn_postLogin {C : Call → Prop} {body : LoginBody}
    (h : ∀ attempt : Attempt, attempt.toClientSignals =
        observedSignals env request body.toClientSignals body.simulationTicket →
      CallsIn C (authenticate env d attempt)) :
    CallsIn C (postLogin env d request body) := by
  have hresolved : CallsIn C (resolveClient body) := by
    unfold resolveClient
    split
    · exact callsIn_pure
    · exact callsIn_bind (callsIn_transaction callsIn_read) fun _ => callsIn_pure
  refine callsIn_bind_of_run hresolved fun resolved t t' hrun => ?_
  have hsame : (resolveClient body).wp (fun resolved _ =>
      resolved.toClientSignals = body.toClientSignals) (fun _ => True) t := by
    unfold resolveClient
    split <;> simp
  have hsignals := wp_of_ok hsame hrun
  refine callsIn_observed (callsIn_bind (callsIn_login fun app => h _ ?_) fun _ => callsIn_pure)
  rw [hsignals]
  rfl

/-- Every evaluation asked for by a login is of the signals of the request. -/
theorem callsIn_post (htrust : env.settings.trustClientReportedIp = false) (body : WebLogin) :
    CallsIn (fun c => ∀ r reply, c = .evaluate r reply →
      r.signals = scoredSignals env request body.simulationTicket) (body.post env d request) := by
  cases body with
  | app body =>
      refine callsIn_postLogin fun attempt hsignals => ?_
      refine callsIn_authenticate (by simp) fun userId loginSuccessful stepUpRequired => ?_
      rintro _ _ ⟨⟩
      simp only [signals_evaluateRequest, attemptSignals, scoredSignals, hsignals,
        observedSignals_eq htrust, WebLogin.simulationTicket]
  | console body =>
      refine callsIn_observed ?_
      refine callsIn_bind (callsIn_consoleLogin (by simp) fun tenant console => ?_)
        fun _ => callsIn_pure
      refine callsIn_authenticate (by simp) fun userId loginSuccessful stepUpRequired => ?_
      rintro _ _ ⟨⟩
      simp only [signals_evaluateRequest, attemptSignals, scoredSignals, consoleAttempt,
        observedSignals_eq htrust, WebLogin.simulationTicket]

/-- What a risk request says where clients are not trusted. -/
structure SignalLaw (env : Env) (request : HttpRequest) (ticket : Option String)
    (r : RiskEvaluateRequest) : Prop where
  scored : r.signals = scoredSignals env request ticket
  own : ¬ ValidTicket env ticket request.receivedAt →
    r.country = (lookupIp env r.ipAddress).country ∧ r.asn = (lookupIp env r.ipAddress).asn ∧
      r.simulated = false
  address : env.settings.privateIpIsHome = false →
    r.ipAddress = strip (clientIp env request) ∧
      (r.ipAddress = homeIp → strip (clientIp env request) = homeIp)

theorem signalLaw_of_scored {ticket : Option String} {r : RiskEvaluateRequest}
    (h : r.signals = scoredSignals env request ticket) : SignalLaw env request ticket r where
  scored := h
  own := by
    intro hinvalid
    have hnone : ticketSignals env ticket request.receivedAt = none := by
      rw [Option.eq_none_iff_forall_ne_some]
      exact fun s hs => hinvalid (validTicket_of_signals hs)
    simp only [RiskEvaluateRequest.signals, scoredSignals, hnone, Option.bind_none,
      resolveLoginSignals_none, Prod.mk.injEq, LoginSignals.mk.injEq] at h
    rw [h.1]
    exact h.2
  address := by
    intro hprivate
    have hip : r.ipAddress = strip (clientIp env request) := by
      have hsame := congrArg Prod.fst h
      simpa [RiskEvaluateRequest.signals, scoredSignals, scoredIp, hprivate] using hsame
    exact ⟨hip, fun hhome => hip ▸ hhome⟩

/-- **Client-claimed signals are ignored where clients are not trusted.**  Bodies
that differ only in them are served alike, and what the risk engine is asked about
comes from the HTTP request and a valid ticket alone, whatever the request draws
and whether or not the password matches. -/
theorem client_signals_ignored (htrust : env.settings.trustClientReportedIp = false)
    (request : HttpRequest) (body : WebLogin) (db : Db) :
    (∀ d ipAddress country asn,
      ((body.claiming ipAddress country asn).post env d request).run ⟨db, [], []⟩ =
        (body.post env d request).run ⟨db, [], []⟩) ∧
    ∀ d r reply, .evaluate r reply ∈ ((body.post env d request).run ⟨db, [], []⟩).2.calls →
      SignalLaw env request body.simulationTicket r := by
  refine ⟨fun d ipAddress country asn => by rw [post_claiming htrust], fun d r reply hcall => ?_⟩
  obtain ⟨cs, hcs, hin⟩ := callsIn_post (d := d) htrust body ⟨db, [], []⟩
  rw [List.nil_append] at hcs
  exact signalLaw_of_scored (hin _ (hcs ▸ hcall) r reply rfl)

/-- A deployment that does not trust its clients. -/
def Env.untrusting : Env :=
  { Env.standIn with
    settings := { Settings.default with
      trustClientReportedIp := false
      privateIpIsHome := false
      simulationSecret := "secret" } }

/-- The country a call to the risk engine names. -/
def Call.country : Call → Option String
  | .evaluate r _ => r.country
  | _ => none

theorem claimsHome_evaluated : ∀ password ∈ ["clave", "llave"],
    ∃ c ∈ (((claimsHome password).post .untrusting (.usual 1) fromAbroad).run
      ⟨.standIn, [], []⟩).2.calls, c.country = some "JP" := by
  decide +kernel

/-- With this password, the risk engine is asked about the address abroad. -/
def AskedAbroad (password : String) : Prop := ∃ r reply,
  .evaluate r reply ∈ (((claimsHome password).post .untrusting (.usual 1) fromAbroad).run
    ⟨.standIn, [], []⟩).2.calls ∧
  SignalLaw .untrusting fromAbroad (claimsHome password).simulationTicket r ∧
  r.country = some "JP"

/-- It is, whether or not the password is right. -/
theorem client_signals_ignored_abroad : AskedAbroad "clave" ∧ AskedAbroad "llave" := by
  have hasked : ∀ password ∈ ["clave", "llave"], AskedAbroad password := by
    intro password hpassword
    obtain ⟨c, hcall, hcountry⟩ := claimsHome_evaluated password hpassword
    cases c with
    | evaluate r reply =>
        exact ⟨r, reply, hcall, (client_signals_ignored rfl fromAbroad (claimsHome password)
          .standIn).2 _ r reply hcall, hcountry⟩
    | _ => cases hcountry
  exact ⟨hasked "clave" (by simp), hasked "llave" (by simp)⟩

end RbaIdp
