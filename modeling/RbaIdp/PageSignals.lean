import RbaIdp.AddressText
import RbaIdp.Encoding.Ascii
import RbaIdp.HostedPage
import RbaIdp.Signals

/-!
# What the page shows is what is scored

The page resolves where a login comes from, shows it, and posts it back; the login
resolves it once more.  Both agree because resolving is idempotent: an address that
has been scored is scored as itself, and a country or network that has been
normalised is normal (`resolveLoginSignals_resolved`).  Where clients are not trusted
what agrees is the address of the request and the ticket the page passed on.
-/

namespace RbaIdp

open Relational Program Encoding

variable {env : Env} {d : Draws}

/-! ## Normal forms -/

/-- What the normalisers rely on of Unicode. -/
structure UnicodeLaws (lib : Library) : Prop where
  upper_upper : ∀ text, lib.upper (lib.upper text) = lib.upper text
  /-- Digits and the capital letters of ASCII have no other upper case. -/
  upper_self : ∀ text,
    (∀ c ∈ text.toList, lib.isDigit c = true ∨ ('A' ≤ c ∧ c ≤ 'Z')) → lib.upper text = text
  alpha_not_space : ∀ c, lib.isAlpha c = true → isSpace c = false
  digit_not_space : ∀ c, lib.isDigit c = true → isSpace c = false
  digit_not_capital : ∀ c, lib.isDigit c = true → ¬ ('A' ≤ c ∧ c ≤ 'Z')
  digit_ascii : ∀ c, '0' ≤ c → c ≤ '9' → lib.isDigit c = true

/-- A default that a normaliser keeps or drops is kept below its results. -/
theorem or_normalised {α : Type} {normalise : Option α → Option α} {default : Option α}
    (hidempotent : ∀ value, normalise (normalise value) = normalise value)
    (hdefault : normalise default = none ∨ normalise default = default) (value : Option α) :
    (normalise ((normalise value).or default)).or default = (normalise value).or default := by
  cases hvalue : normalise value with
  | none =>
      rw [Option.none_or]
      rcases hdefault with hdefault | hdefault
      · rw [hdefault, Option.none_or]
      · rw [hdefault, Option.or_self]
  | some a =>
      have hkept : normalise (some a) = some a := by rw [← hvalue, hidempotent]
      rw [Option.some_or, hkept, Option.some_or]

theorem strip_eq_self_of_all {p : Char → Bool} (hp : ∀ c, p c = true → isSpace c = false)
    {text : String} (h : ∀ c ∈ text.toList, p c = true) : strip text = text := by
  refine strip_eq_self (fun c hc => hp c (h c ?_)) fun c hc => hp c (h c ?_)
  · exact List.mem_of_mem_head? hc
  · exact List.mem_of_mem_getLast? hc

theorem strip_strip (text : String) : strip (strip text) = strip text :=
  strip_eq_self (strip_ends text).1 (strip_ends text).2

/-- What is left of a country is two letters in upper case. -/
theorem normalizeCountry_eq_some {value : Option String} {text : String}
    (hcountry : normalizeCountry env value = some text) :
    (∃ given, text = env.lib.upper given) ∧ text.toList.length = 2 ∧
      ∀ c ∈ text.toList, env.lib.isAlpha c = true := by
  cases value with
  | none => cases hcountry
  | some value =>
      simp only [normalizeCountry, Option.ite_none_left_eq_some, not_or, not_not,
        List.all_eq_true, Option.some.injEq] at hcountry
      obtain ⟨⟨hlength, halpha⟩, rfl⟩ := hcountry
      exact ⟨⟨_, rfl⟩, hlength, halpha⟩

/-- Two letters in upper case are a normal country. -/
theorem normalizeCountry_letters (h : UnicodeLaws env.lib) {text : String}
    (hupper : env.lib.upper text = text) (hlength : text.toList.length = 2)
    (halpha : ∀ c ∈ text.toList, env.lib.isAlpha c = true) :
    normalizeCountry env (some text) = some text := by
  have hstrip : strip text = text := strip_eq_self_of_all h.alpha_not_space halpha
  have hall : text.toList.all env.lib.isAlpha = true := List.all_eq_true.mpr halpha
  simp [normalizeCountry, hstrip, hupper, hlength, hall]

theorem normalizeCountry_normalised (h : UnicodeLaws env.lib) (value : Option String) :
    normalizeCountry env (normalizeCountry env value) = normalizeCountry env value := by
  cases hcountry : normalizeCountry env value with
  | none => rfl
  | some text =>
      obtain ⟨⟨given, hgiven⟩, hlength, halpha⟩ := normalizeCountry_eq_some hcountry
      exact normalizeCountry_letters h (by rw [hgiven, h.upper_upper]) hlength halpha

/-- A text of digits is a normal network number. -/
theorem normalizeAsn_digits (h : UnicodeLaws env.lib) {text : String}
    (hdigits : ∀ c ∈ text.toList, env.lib.isDigit c = true) :
    normalizeAsn env (some text) = if text.toList.isEmpty then none else some text := by
  have hstrip : strip text = text := strip_eq_self_of_all h.digit_not_space hdigits
  have hupper : env.lib.upper text = text := h.upper_self text fun c hc => Or.inl (hdigits c hc)
  have hplain : ['A', 'S'].isPrefixOf text.toList = false := by
    cases hchars : text.toList with
    | nil => rfl
    | cons c rest =>
        have hne : c ≠ 'A' := by
          rintro rfl
          refine h.digit_not_capital 'A' (hdigits 'A' ?_) (by decide)
          rw [hchars]
          exact List.mem_cons_self
        simp [List.isPrefixOf, hne.symm]
  have hall : text.toList.all env.lib.isDigit = true := List.all_eq_true.mpr hdigits
  simp only [normalizeAsn, hstrip, hupper, hplain, Bool.false_eq_true, if_false,
    String.ofList_toList, hall, Bool.and_true, Bool.not_eq_true']
  cases text.toList.isEmpty <;> rfl

/-- What is left of a network number is digits. -/
theorem normalizeAsn_eq_some {value : Option String} {text : String}
    (hasn : normalizeAsn env value = some text) :
    text.toList.isEmpty = false ∧ ∀ c ∈ text.toList, env.lib.isDigit c = true := by
  cases value with
  | none => cases hasn
  | some value =>
      simp only [normalizeAsn, Option.ite_none_right_eq_some, Bool.and_eq_true,
        Bool.not_eq_true', List.all_eq_true, Option.some.injEq] at hasn
      obtain ⟨⟨hne, hdigits⟩, rfl⟩ := hasn
      exact ⟨hne, hdigits⟩

theorem normalizeAsn_normalised (h : UnicodeLaws env.lib) (value : Option String) :
    normalizeAsn env (normalizeAsn env value) = normalizeAsn env value := by
  cases hasn : normalizeAsn env value with
  | none => rfl
  | some text =>
      obtain ⟨hne, hdigits⟩ := normalizeAsn_eq_some hasn
      rw [normalizeAsn_digits h hdigits, hne]
      rfl

/-! ## What an address says by itself -/

/-- The signals of an address: none, those of a demo network, or those on record. -/
theorem lookupIp_cases (ip : String) :
    lookupIp env ip = ⟨none, none, false⟩ ∨
      (∃ net ∈ testNets, lookupIp env ip = ⟨some net.2.1, some net.2.2, false⟩) ∨
      ∃ addr, lookupIp env ip = geoLookup env addr := by
  unfold lookupIp
  split
  · exact Or.inl rfl
  · next addr _ =>
    simp only
    split
    · next base country asn hnet =>
      refine Or.inr (Or.inl ⟨(base, country, asn), ?_, rfl⟩)
      cases addr with
      | v4 ip => exact List.mem_of_find?_eq_some hnet
      | v6 ip scopeId => cases hnet
    · split
      · exact Or.inl rfl
      · exact Or.inr (Or.inr ⟨addr, rfl⟩)

theorem isSpace_capital {c : Char} (h : 'A' ≤ c ∧ c ≤ 'Z') : isSpace c = false := by
  have hrange : 65 ≤ c.toNat ∧ c.toNat ≤ 90 := h
  simp [isSpace]
  omega

/-- The signals of the demo networks are plain letters and digits. -/
theorem testNets_plain : ∀ net ∈ testNets,
    (net.2.1.toList.length = 2 ∧ ∀ c ∈ net.2.1.toList, 'A' ≤ c ∧ c ≤ 'Z') ∧
      ∀ c ∈ net.2.2.toList, '0' ≤ c ∧ c ≤ '9' := by
  simp [testNets]

/-- A normaliser keeps the country of an address, or drops it. -/
theorem normalizeCountry_lookup (h : UnicodeLaws env.lib) (ip : String) :
    normalizeCountry env (lookupIp env ip).country = none ∨
      normalizeCountry env (lookupIp env ip).country = (lookupIp env ip).country := by
  rcases @lookupIp_cases env ip with hlooked | ⟨net, hnet, hlooked⟩ | ⟨addr, hlooked⟩
  · rw [hlooked]
    exact Or.inl rfl
  · obtain ⟨⟨-, hcapitals⟩, -⟩ := testNets_plain net hnet
    have hstrip : strip net.2.1 = net.2.1 := by
      refine strip_eq_self (fun c hc => isSpace_capital (hcapitals c ?_))
        fun c hc => isSpace_capital (hcapitals c ?_)
      · exact List.mem_of_mem_head? hc
      · exact List.mem_of_mem_getLast? hc
    have hupper : env.lib.upper net.2.1 = net.2.1 :=
      h.upper_self _ fun c hc => Or.inr (hcapitals c hc)
    rw [hlooked]
    simp only [normalizeCountry, hstrip, hupper]
    split
    · exact Or.inl rfl
    · exact Or.inr rfl
  · rw [hlooked]
    exact Or.inr (normalizeCountry_normalised h _)

theorem isDigit_of_toString (h : UnicodeLaws env.lib) {n : ℕ} :
    ∀ c ∈ (toString n).toList, env.lib.isDigit c = true := by
  have hascii : ∀ d < 10, '0' ≤ Nat.digitChar d ∧ Nat.digitChar d ≤ '9' := by decide
  intro c hc
  rw [Nat.toString_eq_repr, Nat.toList_repr] at hc
  obtain ⟨d, hd, rfl⟩ := mem_toDigits (by omega) hc
  exact h.digit_ascii _ (hascii d hd).1 (hascii d hd).2

/-- A normaliser keeps the network of an address, or drops it. -/
theorem normalizeAsn_lookup (h : UnicodeLaws env.lib) (ip : String) :
    normalizeAsn env (lookupIp env ip).asn = none ∨
      normalizeAsn env (lookupIp env ip).asn = (lookupIp env ip).asn := by
  have hdigits : ∀ text ∈ (lookupIp env ip).asn, ∀ c ∈ text.toList, env.lib.isDigit c = true := by
    rcases @lookupIp_cases env ip with hlooked | ⟨net, hnet, hlooked⟩ | ⟨addr, hlooked⟩
    · simp [hlooked]
    · obtain ⟨-, hascii⟩ := testNets_plain net hnet
      rw [hlooked]
      rintro _ ⟨⟩ c hc
      exact h.digit_ascii c (hascii c hc).1 (hascii c hc).2
    · rw [hlooked]
      intro text htext
      obtain ⟨n, -, rfl⟩ := Option.map_eq_some_iff.mp (Option.mem_def.mp htext)
      exact isDigit_of_toString h
  cases hasn : (lookupIp env ip).asn with
  | none => exact Or.inl rfl
  | some text =>
      rw [normalizeAsn_digits h (hdigits text hasn)]
      split
      · exact Or.inl rfl
      · exact Or.inr rfl

/-! ## Resolving is idempotent -/

theorem isUnroutable_homeIp : isUnroutable homeIp = false := by decide

/-- An address that has been scored is scored as itself. -/
theorem scoredIp_scored (ip : String) (privateIsHome : Bool) :
    scoredIp (scoredIp ip privateIsHome) privateIsHome = scoredIp ip privateIsHome := by
  have hhome : strip homeIp = homeIp := by decide
  unfold scoredIp
  split
  · simp [isUnroutable_homeIp, hhome]
  · next hroutable =>
    have hstripped : isUnroutable (strip ip) = isUnroutable ip := by
      simp only [isUnroutable, strip_strip]
    rw [hstripped, if_neg hroutable, strip_strip]

/-- The signals a page shows resolve to themselves. -/
theorem resolveLoginSignals_resolved (h : UnicodeLaws env.lib) (ip : String)
    (country asn : Option String) :
    resolveLoginSignals env ip (resolveLoginSignals env ip country asn).country
      (resolveLoginSignals env ip country asn).asn = resolveLoginSignals env ip country asn := by
  have hcountry := or_normalised (normalizeCountry_normalised h) (normalizeCountry_lookup h ip)
    country
  have hasn := or_normalised (normalizeAsn_normalised h) (normalizeAsn_lookup h ip) asn
  simp only [resolveLoginSignals, hcountry, hasn]

/-! ## The ticket a page passes on -/

variable (env) in
/-- It is not too late for a ticket. -/
def Unexpired (ticket : Option String) (now : Time) : Prop :=
  ∀ payload signature data,
    Simulation.ticketParts env.settings.simulationSecret ticket = some (payload, signature) →
    Simulation.readPayload env.lib payload = .ok data → clock now < data.2

/-- A ticket that was accepted is accepted until it expires. -/
theorem verifyTicket_later {lib : Library} {secret : String} {ticket : Option String}
    {now later : ℚ} {signals : Simulation.SimulatedSignals}
    (h : Simulation.verifyTicket lib secret ticket now = .ok (some signals))
    (hlive : ∀ payload signature data, Simulation.ticketParts secret ticket =
      some (payload, signature) → Simulation.readPayload lib payload = .ok data → later < data.2) :
    Simulation.verifyTicket lib secret ticket later = .ok (some signals) := by
  obtain ⟨payload, signature, data, hparts, hsigned, hread, hlate⟩ :=
    Simulation.verifyTicket_eq_some h
  have hlater := hlive payload signature data hparts hread
  simp only [Simulation.verifyTicket, hparts, Simulation.readSignals, hread,
    if_neg (not_le.mpr hlate)] at h
  simp only [Simulation.verifyTicket, hparts, Simulation.readSignals, hread,
    if_neg (not_le.mpr hlater)]
  exact h

theorem ticketSignals_later {ticket : Option String} {now later : Time} {s : SimulatedSignals}
    (h : ticketResult env ticket now = some (some s)) (hlive : Unexpired env ticket later) :
    ticketSignals env ticket later = some s := by
  unfold ticketResult at h
  split at h
  · cases h
  · cases h
  · next signals hverified =>
    have hlater := verifyTicket_later hverified hlive
    simp only [ticketSignals, ticketResult, hlater, h, Option.getD_some]

/-- A ticket that is empty is none. -/
theorem ticketSignals_nonEmpty (ticket : Option String) (now : Time) :
    ticketSignals env (nonEmpty ticket) now = ticketSignals env ticket now := by
  have hparts : Simulation.ticketParts env.settings.simulationSecret (nonEmpty ticket) =
      Simulation.ticketParts env.settings.simulationSecret ticket := by
    simp [Simulation.ticketParts, nonEmpty]
  simp only [ticketSignals, ticketResult, Simulation.verifyTicket, hparts]

theorem ticketSignals_none (now : Time) : ticketSignals env none now = none := by
  simp [ticketSignals, ticketResult, Simulation.verifyTicket, Simulation.ticketParts, nonEmpty]

/-! ## The page and the login -/

variable {get post : HttpRequest} {query : PageQuery} {boot : HostedBoot}

/-- The signals a page shows. -/
def HostedBoot.signals (boot : HostedBoot) : String × LoginSignals :=
  (boot.ipAddress, ⟨boot.country, boot.asn, boot.simulated⟩)

/-- What a page shows is resolved from what its query claims, or from its ticket. -/
theorem signals_of_boot {t t' : World}
    (hbuilt : (hostedBoot env get query false).run t = (.ok boot, t')) :
    let ip := scoredIp (clientIp env get) env.settings.privateIpIsHome
    if env.settings.trustClientReportedIp then
      boot.signals = (ip, resolveLoginSignals env ip query.country query.asn) ∧
        boot.simulationTicket = none
    else
      ∃ claimed, ticketResult env query.simulationTicket get.receivedAt = some claimed ∧
        boot.signals = (ip, resolveLoginSignals env ip (claimed.bind SimulatedSignals.country)
          (claimed.bind SimulatedSignals.asn)) ∧
        boot.simulationTicket = claimed.bind fun _ => query.simulationTicket := by
  intro ip
  have hboot : (hostedBoot env get query false).wp (fun boot _ =>
      if env.settings.trustClientReportedIp then
        boot.signals = (ip, resolveLoginSignals env ip query.country query.asn) ∧
          boot.simulationTicket = none
      else
        ∃ claimed, ticketResult env query.simulationTicket get.receivedAt = some claimed ∧
          boot.signals = (ip, resolveLoginSignals env ip (claimed.bind SimulatedSignals.country)
            (claimed.bind SimulatedSignals.asn)) ∧
          boot.simulationTicket = claimed.bind fun _ => query.simulationTicket)
      (fun _ => True) t := by
    simp only [hostedBoot, pageClaims, wp_bind, wp_transaction, wp_read, wp_pure]
    split
    · exact ⟨rfl, rfl⟩
    · simp only [verifyTicket, wp_bind, wp_require, wp_pure]
      exact ⟨fun _ => trivial, fun claimed hclaimed => ⟨claimed, hclaimed, rfl, rfl⟩⟩
  exact wp_of_ok hboot hbuilt

variable (env) in
/-- What an attempt with these signals is scored by. -/
def scoredBy (signals : ClientSignals) : String × LoginSignals :=
  (scoredIp signals.ipAddress env.settings.privateIpIsHome,
    resolveLoginSignals env (scoredIp signals.ipAddress env.settings.privateIpIsHome)
      signals.country signals.asn)

/-- The page's post is scored by what the page shows. -/
theorem scoredBy_post (h : UnicodeLaws env.lib) {t t' : World}
    (hbuilt : (hostedBoot env get query false).run t = (.ok boot, t'))
    (hclient : clientIp env post = clientIp env get)
    (hlive : Unexpired env boot.simulationTicket post.receivedAt) (form : LoginForm) :
    scoredBy env (observedSignals env post (loginPayload boot form).toClientSignals
      (loginPayload boot form).simulationTicket) = boot.signals := by
  have hshown := signals_of_boot hbuilt
  by_cases htrust : env.settings.trustClientReportedIp = true
  · -- the login scores what the page has resolved already
    obtain ⟨hsignals, -⟩ := (if_pos htrust).mp hshown
    have hip := congrArg Prod.fst hsignals
    have hcountry := congrArg (fun s => s.2.country) hsignals
    have hasn := congrArg (fun s => s.2.asn) hsignals
    simp only [HostedBoot.signals] at hip hcountry hasn
    simp only [scoredBy, observedSignals, htrust, if_true, loginPayload, hip, hcountry, hasn,
      scoredIp_scored, resolveLoginSignals_resolved h, hsignals]
  · -- the login resolves the same address with the same ticket
    obtain ⟨claimed, hclaimed, hsignals, hticket⟩ := (if_neg htrust).mp hshown
    have hsame : ticketSignals env (nonEmpty boot.simulationTicket) post.receivedAt = claimed := by
      rw [ticketSignals_nonEmpty, hticket]
      cases claimed with
      | none => exact ticketSignals_none _
      | some s =>
          rw [hticket] at hlive
          exact ticketSignals_later hclaimed hlive
    simp only [scoredBy, observedSignals_eq (Bool.eq_false_iff.mpr htrust), loginPayload, hsame,
      hclient, hsignals]

/-- **What the page shows is what is scored.**  Scoring an address and resolving
signals are idempotent, and whatever the risk engine is asked about a login from the
page, from the address that fetched it and before its ticket expires, is what the
page shows. -/
theorem shown_is_scored (h : UnicodeLaws env.lib) :
    (∀ ip privateIsHome,
      scoredIp (scoredIp ip privateIsHome) privateIsHome = scoredIp ip privateIsHome) ∧
    (∀ ip country asn, resolveLoginSignals env ip (resolveLoginSignals env ip country asn).country
      (resolveLoginSignals env ip country asn).asn = resolveLoginSignals env ip country asn) ∧
    ∀ (get post : HttpRequest) (query : PageQuery) (shown : Db) (boot : HostedBoot),
      ((hostedBoot env get query false).run ⟨shown, [], []⟩).1 = .ok boot →
      clientIp env post = clientIp env get →
      Unexpired env boot.simulationTicket post.receivedAt →
      ∀ d form db r reply,
        .evaluate r reply ∈ ((postLogin env d post (loginPayload boot form)).run
          ⟨db, [], []⟩).2.calls →
        r.signals = boot.signals := by
  refine ⟨scoredIp_scored, resolveLoginSignals_resolved h, ?_⟩
  intro get post query shown boot hbuilt hclient hlive d form db r reply hcall
  have hscored := scoredBy_post h (Prod.ext hbuilt rfl) hclient hlive form
  have hcalls : CallsIn (fun c => ∀ r reply, c = .evaluate r reply → r.signals = boot.signals)
      (postLogin env d post (loginPayload boot form)) := by
    refine callsIn_postLogin fun attempt hsignals => ?_
    refine callsIn_authenticate (by simp) fun userId loginSuccessful stepUpRequired => ?_
    rintro _ _ ⟨⟩
    rw [signals_evaluateRequest, attemptSignals, hsignals]
    exact hscored
  obtain ⟨cs, hcs, hin⟩ := hcalls ⟨db, [], []⟩
  rw [List.nil_append] at hcs
  exact hin _ (hcs ▸ hcall) r reply rfl

/-! ## The stand-ins know the ASCII part of Unicode -/

theorem capital_iff {c : Char} : ('A' ≤ c ∧ c ≤ 'Z') ↔ 65 ≤ c.toNat ∧ c.toNat ≤ 90 := Iff.rfl

theorem isSpace_of_ascii {c : Char} (h : 33 ≤ c.toNat ∧ c.toNat ≤ 126) : isSpace c = false := by
  simp [isSpace]
  omega

theorem unicodeLaws_standIn : UnicodeLaws Library.standIn where
  upper_upper text := by
    simp only [Library.standIn, String.toList_ofList, List.map_map, Function.comp_def,
      Ascii.toUpper_toUpper]
  upper_self text htext := by
    have hself : text.toList.map Char.toUpper = text.toList.map id := by
      refine List.map_congr_left fun c hc => Ascii.toUpper_of_not_lower ?_
      rcases htext c hc with hdigit | hcapital
      · have := Ascii.isDigit_iff.mp hdigit
        omega
      · have := capital_iff.mp hcapital
        omega
    simp [Library.standIn, hself]
  alpha_not_space c hc := isSpace_of_ascii (by have := Ascii.isAlpha_iff.mp hc; omega)
  digit_not_space c hc := isSpace_of_ascii (by have := Ascii.isDigit_iff.mp hc; omega)
  digit_not_capital c hc := by
    have := Ascii.isDigit_iff.mp hc
    rw [capital_iff]
    omega
  digit_ascii c hlow hhigh := Ascii.isDigit_iff.mpr ⟨hlow, hhigh⟩

/-- A page fetched from Japan whose query claims Brazil. -/
def fromBrazil : PageQuery where
  clientId := some "rk_portal"
  redirectUri := none
  country := some " br "
  asn := none
  simulationTicket := none
  next := none

def brazilBoot : HostedBoot where
  console := false
  clientId := some "rk_portal"
  applicationName := some "Portal"
  tenantName := some "Acme"
  unknownApplication := false
  ipAddress := "192.0.2.50"
  country := some "BR"
  asn := some "2516"
  next := none
  redirectUri := some "https://portal"
  simulated := true
  simulationTicket := none
  mockOtp := false
  look := "rokusec"
  branding := some ⟨"Acme", none, "#1466E5", "#152953"⟩

theorem brazil_evaluated :
    ∃ c ∈ ((postLogin .standIn (.usual 1) fromAbroad (loginPayload brazilBoot
      ⟨"ana@acme", "clave", none, none, none, none⟩)).run ⟨.standIn, [], []⟩).2.calls,
      c.country = some "BR" := by
  decide +kernel

/-- The login is scored as a simulated one from Brazil, as the page says. -/
theorem shown_is_scored_brazil : ∃ r reply,
    .evaluate r reply ∈ ((postLogin .standIn (.usual 1) fromAbroad (loginPayload brazilBoot
      ⟨"ana@acme", "clave", none, none, none, none⟩)).run ⟨.standIn, [], []⟩).2.calls ∧
    r.signals = ("192.0.2.50", ⟨some "BR", some "2516", true⟩) := by
  have hlive : Unexpired .standIn none fromAbroad.receivedAt := by
    intro payload signature data hparts
    cases hparts
  obtain ⟨c, hcall, hcountry⟩ := brazil_evaluated
  cases c with
  | evaluate r reply =>
      refine ⟨r, reply, hcall, ?_⟩
      exact (@shown_is_scored .standIn unicodeLaws_standIn).2.2 fromAbroad fromAbroad fromBrazil
        .standIn brazilBoot (by decide +kernel) rfl hlive _ _ _ r reply hcall
  | _ => cases hcountry

end RbaIdp
