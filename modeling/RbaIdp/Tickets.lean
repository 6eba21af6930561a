import RbaIdp.Web

/-!
# Tickets come back

A ticket that was issued verifies, with the values it was issued for, until the second
it expires at (`ticket_round_trip`).  Any other text is refused, and the refusal is an
answer rather than an exception as long as what is compared is ASCII and what was
signed is read without overflow (`verify_ticket_total_iff`).
-/

namespace RbaIdp

namespace Simulation

open Encoding

variable {lib : Library} {secret : String} {ticket : Option String} {now : ℚ}

/-! ## What is refused -/

/-- A ticket whose second part signs the first, and whose time has not come. -/
def SignedAndLive (lib : Library) (secret : String) (ticket : Option String) (now : ℚ) : Prop :=
  ∃ text payload signature data, ticket = some text ∧
    partition text '.' = (payload, true, signature) ∧ signature = sign lib secret payload ∧
    readPayload lib payload = .ok data ∧ now < data.2

/-- An exception that `verify_ticket` does not expect. -/
def Escapes {α : Type} (x : Except PyException α) : Prop :=
  ∃ e, x = .error e ∧ isCaught e = false

section Rules

variable {α β : Type}

theorem escapes_error {e : PyException} :
    Escapes (.error e : Except PyException α) ↔ isCaught e = false := by
  simp [Escapes]

@[simp] theorem not_escapes_ok (a : α) : ¬ Escapes (.ok a : Except PyException α) := by
  simp [Escapes]

@[simp] theorem not_escapes_pure (a : α) : ¬ Escapes (pure a : Except PyException α) :=
  not_escapes_ok a

theorem escapes_bind {x : Except PyException α} {f : α → Except PyException β} :
    Escapes (x >>= f) ↔ Escapes x ∨ ∃ a, x = .ok a ∧ Escapes (f a) := by
  cases x with
  | error e => simp [Escapes, Bind.bind, Except.bind]
  | ok a => simp [Escapes, Bind.bind, Except.bind]

theorem escapes_elim {o : Option α} {e : PyException} :
    Escapes (o.elim (.error e) .ok : Except PyException α) ↔ o = none ∧ isCaught e = false := by
  cases o with
  | none => simp [escapes_error]
  | some a => simp

end Rules

@[simp] theorem not_escapes_unb64 (text : String) : ¬ Escapes (unb64 text) := by
  unfold unb64
  split
  · simp [escapes_elim, isCaught]
  · simp [escapes_error, isCaught]

@[simp] theorem not_escapes_subscript (data : Json) (key : String) :
    ¬ Escapes (data.subscript key) := by
  cases data with
  | obj fields => simp [Json.subscript, escapes_elim, isCaught]
  | _ => simp [Json.subscript, escapes_error, isCaught]

/-- Of all values, `int` overflows on the infinite ones alone. -/
theorem escapes_pyInt {value : Json} :
    Escapes (pyInt lib value) ↔ ∃ negative, value = .infinity negative := by
  cases value with
  | infinity negative => simp [pyInt, escapes_error, isCaught]
  | str text => simp [pyInt, escapes_elim, isCaught]
  | null | nan | arr _ | obj _ => simp [pyInt, escapes_error, isCaught]
  | bool _ | int _ | float _ => simp [pyInt]

/-- A payload the parser gives up on, or one that expires at no finite time. -/
def Overflows (lib : Library) (payload : String) : Prop :=
  ∃ bytes, unb64 payload = .ok bytes ∧ (Escapes (lib.jsonLoads bytes) ∨
    ∃ data negative, lib.jsonLoads bytes = .ok data ∧
      data.subscript "exp" = .ok (.infinity negative))

theorem escapes_readPayload {payload : String} :
    Escapes (readPayload lib payload) ↔ Overflows lib payload := by
  simp only [readPayload, escapes_bind, escapes_pyInt, not_escapes_unb64, not_escapes_subscript,
    not_escapes_pure, false_or, and_false, exists_false, or_false, Overflows]
  refine exists_congr fun bytes => and_congr_right fun _ => or_congr_right ?_
  constructor
  · rintro ⟨data, hdata, value, hvalue, negative, rfl⟩
    exact ⟨data, negative, hdata, hvalue⟩
  · rintro ⟨data, negative, hdata, hvalue⟩
    exact ⟨data, hdata, _, hvalue, negative, rfl⟩

/-! ## Base64 of tickets -/

theorem toList_b64 (data : Bytes) : (b64 data).toList = urlsafe.data data := by
  rw [b64, String.toList_ofList, Alphabet.strip_encode]

/-- Base64 is ASCII, and has no dots. -/
theorem mem_b64 {data : Bytes} {c : Char} (h : c ∈ (b64 data).toList) :
    c.toNat < 128 ∧ c ≠ '.' := by
  have halphabet : ∀ n < 64, (urlsafe.char n).toNat < 128 ∧ urlsafe.char n ≠ '.' := by decide
  rw [toList_b64] at h
  obtain ⟨n, hn, rfl⟩ := Alphabet.mem_data h
  exact halphabet n hn

@[simp] theorem isAscii_b64 (data : Bytes) : isAscii (b64 data) = true := by
  simp only [isAscii, List.all_eq_true, decide_eq_true_eq]
  exact fun c hc => (mem_b64 hc).1

@[simp] theorem isAscii_sign (payload : String) : isAscii (sign lib secret payload) = true :=
  isAscii_b64 _

/-- What was stripped is put back. -/
@[simp] theorem unb64_b64 (data : Bytes) : unb64 (b64 data) = .ok data := by
  simp only [unb64, isAscii_b64, if_true, toList_b64, Alphabet.decode_repadded, Option.elim_some]

theorem b64_injective : Function.Injective b64 := by
  intro data data' h
  have hchars := congrArg String.toList h
  rw [toList_b64, toList_b64] at hchars
  exact Alphabet.data_injective hchars

/-! ## Floats -/

theorem isDouble_int {n : ℤ} (h : |n| ≤ 2 ^ 53) : IsDouble n := ⟨n, 0, h, by simp⟩

theorem abs_truncate_le (q : ℚ) : |(truncate q : ℚ)| ≤ |q| := by
  unfold truncate
  split
  · next hq =>
    have hfloor : (0 : ℚ) ≤ ⌊q⌋ := by exact_mod_cast Int.floor_nonneg.mpr hq
    rw [abs_of_nonneg hfloor, abs_of_nonneg hq]
    exact Int.floor_le q
  · next hq =>
    have hneg : q ≤ 0 := (not_le.mp hq).le
    have hceil : (⌈q⌉ : ℚ) ≤ 0 := by exact_mod_cast Int.ceil_le.mpr (by simpa using hneg)
    rw [abs_of_nonpos hceil, abs_of_nonpos hneg]
    exact neg_le_neg (Int.le_ceil q)

/-- A float cut off is a float. -/
theorem isDouble_truncate {q : ℚ} (h : IsDouble q) : IsDouble (truncate q) := by
  obtain ⟨m, e, hm, rfl⟩ := h
  rcases le_or_gt 0 e with he | he
  · -- a whole number is its own truncation
    obtain ⟨k, rfl⟩ := Int.eq_ofNat_of_zero_le he
    have hwhole : (m * 2 ^ ((k : ℕ) : ℤ) : ℚ) = ((m * 2 ^ k : ℤ) : ℚ) := by
      push_cast
      rw [zpow_natCast]
    have htruncate : truncate ((m * 2 ^ k : ℤ) : ℚ) = m * 2 ^ k := by
      unfold truncate
      split
      · exact Int.floor_intCast _
      · exact Int.ceil_intCast _
    exact ⟨m, k, hm, by rw [hwhole, htruncate, ← hwhole]⟩
  · refine isDouble_int ?_
    have hsmall : (2 : ℚ) ^ e ≤ 1 := zpow_le_one_of_nonpos₀ (by norm_num) he.le
    have hpos : (0 : ℚ) < 2 ^ e := zpow_pos (by norm_num) e
    have hbound : |(truncate (m * 2 ^ e : ℚ) : ℚ)| ≤ 2 ^ 53 :=
      calc |(truncate (m * 2 ^ e : ℚ) : ℚ)| ≤ |(m * 2 ^ e : ℚ)| := abs_truncate_le _
        _ = |(m : ℚ)| * 2 ^ e := by rw [abs_mul, abs_of_pos hpos]
        _ ≤ |(m : ℚ)| * 1 := mul_le_mul_of_nonneg_left hsmall (abs_nonneg _)
        _ ≤ 2 ^ 53 := by rw [mul_one]; exact_mod_cast hm
    exact_mod_cast hbound

/-- `int(q)` is `n`: what is behind the point is cut off. -/
structure IsIntPart (q : ℚ) (n : ℤ) : Prop where
  ofNonneg : 0 ≤ q → n ≤ q ∧ q < n + 1
  ofNeg : q < 0 → n - 1 < q ∧ q ≤ n

theorem isIntPart_iff {q : ℚ} {n : ℤ} : IsIntPart q n ↔ truncate q = n := by
  unfold truncate
  by_cases hq : 0 ≤ q
  · rw [if_pos hq, Int.floor_eq_iff]
    exact ⟨fun h => h.ofNonneg hq, fun h => ⟨fun _ => h, fun hneg => absurd hq (not_le.mpr hneg)⟩⟩
  · rw [if_neg hq, Int.ceil_eq_iff]
    exact ⟨fun h => h.ofNeg (not_le.mp hq), fun h => ⟨fun hpos => absurd hpos hq, fun _ => h⟩⟩

/-- A rounding that keeps floats; what is none goes to zero. -/
noncomputable def Rounding.toZero : Rounding where
  round := open Classical in fun q => if IsDouble q then q else 0
  isDouble_round := by
    intro q
    split
    · assumption
    · exact isDouble_int (n := 0) (by norm_num)
  round_of_isDouble := by
    intro q hq
    simp [hq]

/-! ## What `verify_ticket` answers -/

/-- Where does `verify_ticket` raise? -/
def Raises (lib : Library) (secret : String) (ticket : Option String) : Prop :=
  ∃ payload signature, ticketParts secret ticket = some (payload, signature) ∧
    (isAscii signature = false ∨ signature = sign lib secret payload ∧ Overflows lib payload)

theorem verifyTicket_of_parts {payload signature : String}
    (h : ticketParts secret ticket = some (payload, signature)) :
    verifyTicket lib secret ticket now =
      if isAscii signature then
        if signature = sign lib secret payload then readSignals lib payload now else .ok none
      else .error .typeError := by
  rw [verifyTicket, h]
  by_cases hascii : isAscii signature = true
  · by_cases hsame : signature = sign lib secret payload
    · simp [compareDigest, hsame]
    · simp [compareDigest, hascii, hsame, beq_eq_false_iff_ne.mpr hsame]
  · simp [compareDigest, hascii]

theorem readSignals_error {payload : String} :
    (∃ e, readSignals lib payload now = .error e) ↔ Overflows lib payload := by
  rw [← escapes_readPayload]
  unfold readSignals
  cases hread : readPayload lib payload with
  | error e =>
      cases hcaught : isCaught e with
      | true => simp [escapes_error, hcaught]
      | false => simp [escapes_error, hcaught]
  | ok data =>
      obtain ⟨data, expires⟩ := data
      by_cases hlate : (expires : ℚ) ≤ now
      · simp [hlate]
      · simp [hlate]

theorem verifyTicket_error :
    (∃ e, verifyTicket lib secret ticket now = .error e) ↔ Raises lib secret ticket := by
  cases hparts : ticketParts secret ticket with
  | none =>
      refine iff_of_false ?_ ?_
      · rintro ⟨e, he⟩
        rw [verifyTicket, hparts] at he
        cases he
      · rintro ⟨payload, signature, h, -⟩
        rw [hparts] at h
        cases h
  | some parts =>
      obtain ⟨payload, signature⟩ := parts
      have hraises : Raises lib secret ticket ↔ isAscii signature = false ∨
          signature = sign lib secret payload ∧ Overflows lib payload := by
        constructor
        · rintro ⟨payload', signature', h, hcause⟩
          rw [hparts] at h
          cases h
          exact hcause
        · exact fun hcause => ⟨payload, signature, hparts, hcause⟩
      have hreads : (∃ e, readSignals lib payload now = .error e) ↔ Overflows lib payload :=
        readSignals_error
      rw [hraises, verifyTicket_of_parts hparts, ← hreads]
      cases hascii : isAscii signature with
      | false => simp
      | true =>
          by_cases hsame : signature = sign lib secret payload
          · simp [hsame]
          · simp [hsame]

theorem ticketParts_of_split (hsecret : secret ≠ "") {text payload signature : String}
    (hsplit : partition text '.' = (payload, true, signature)) :
    ticketParts secret (some text) = some (payload, signature) := by
  have hne : text ≠ "" := by
    intro hempty
    rw [hempty] at hsplit
    simp [partition] at hsplit
  have hkept : nonEmpty (some text) = some text := by simp [nonEmpty, Option.filter, hne]
  simp [ticketParts, hsecret, hkept, hsplit]

/-- An answer has signals exactly when the ticket is signed and live. -/
theorem isSome_of_verifyTicket (hsecret : secret ≠ "") {r : Option SimulatedSignals}
    (h : verifyTicket lib secret ticket now = .ok r) :
    r.isSome = true ↔ SignedAndLive lib secret ticket now := by
  constructor
  · intro hsome
    obtain ⟨signals, rfl⟩ := Option.isSome_iff_exists.mp hsome
    obtain ⟨payload, signature, data, hparts, hsigned, hread, hlive⟩ := verifyTicket_eq_some h
    obtain ⟨-, text, htext, hsplit⟩ := ticketParts_eq_some hparts
    exact ⟨text, payload, signature, data, htext, hsplit, hsigned, hread, hlive⟩
  · rintro ⟨text, payload, signature, ⟨data, expires⟩, rfl, hsplit, rfl, hread, hlive⟩
    rw [verifyTicket_of_parts (ticketParts_of_split hsecret hsplit)] at h
    simp only [isAscii_sign, if_true, readSignals, hread, if_neg (not_le.mpr hlive)] at h
    rw [← Except.ok.inj h]
    rfl

end Simulation

open Simulation Encoding

/-! ## The presenter's door -/

/-- The body of `POST /simulation/ticket`. -/
structure SimulationTicketRequest where
  country : Option String
  asn : Option String

/-- `POST /simulation/ticket`: the same 404 whether disabled or the secret is wrong. -/
def postSimulationTicket (env : Env) (R : Rounding) (body : SimulationTicketRequest)
    (secret : Option String) (now : ℚ) : Except HTTPException (String × ℚ) :=
  let configured := env.settings.simulationSecret
  match nonEmpty secret with
  | none => .error ⟨404, "not found"⟩
  | some secret =>
      if configured = "" then .error ⟨404, "not found"⟩
      else
        match compareDigest secret configured with
        | .error _ => .error internalError
        | .ok false => .error ⟨404, "not found"⟩
        | .ok true =>
            .ok (issueTicket env.lib R configured ((nonEmpty body.country).map env.lib.upper)
              body.asn env.settings.simulationTtlSeconds now)

variable {env : Env} {R : Rounding}

theorem postSimulationTicket_iff {body : SimulationTicketRequest} {secret : Option String}
    {now : ℚ} (hwrong : secret ≠ some env.settings.simulationSecret) :
    postSimulationTicket env R body secret now = .error ⟨404, "not found"⟩ ↔
      ∀ header ∈ nonEmpty secret, env.settings.simulationSecret ≠ "" →
        isAscii header = true ∧ isAscii env.settings.simulationSecret = true := by
  have hinternal : internalError ≠ ⟨404, "not found"⟩ := by decide
  unfold postSimulationTicket
  cases hheader : nonEmpty secret with
  | none => simp
  | some header =>
      have hsecret : secret = some header := (Option.filter_eq_some_iff.mp hheader).1
      have hne : header ≠ env.settings.simulationSecret := by
        rintro rfl
        exact hwrong hsecret
      by_cases hconfigured : env.settings.simulationSecret = ""
      · simp [hconfigured]
      · by_cases hascii : isAscii header = true ∧ isAscii env.settings.simulationSecret = true
        · simp [hconfigured, compareDigest, hascii, beq_eq_false_iff_ne.mpr hne]
        · simp [hconfigured, compareDigest, hascii, hinternal]

/-- **Tickets are refused without raising, where what is compared is ASCII and what is
signed can be read.**  `verify_ticket` answers exactly where it does not compare a
signature that is not ASCII, nor reads a signed payload that overflows; an answer has
signals exactly when the ticket is signed and live.  The presenter's door answers 404
to a wrong secret exactly where the two secrets it compares are ASCII. -/
theorem tickets_refused_iff (env : Env) (now : ℚ) :
    (∀ (secret : String) (ticket : Option String), secret ≠ "" →
      ((∃ r, Simulation.verifyTicket env.lib secret ticket now = .ok r ∧
          (r.isSome = true ↔ SignedAndLive env.lib secret ticket now)) ↔
        ¬ Raises env.lib secret ticket)) ∧
    ∀ (R : Rounding) (body : SimulationTicketRequest) (secret : Option String),
      secret ≠ some env.settings.simulationSecret →
      (postSimulationTicket env R body secret now = .error ⟨404, "not found"⟩ ↔
        ∀ header ∈ nonEmpty secret, env.settings.simulationSecret ≠ "" →
          isAscii header = true ∧ isAscii env.settings.simulationSecret = true) := by
  refine ⟨fun secret ticket hsecret => ?_,
    fun R body secret hwrong => postSimulationTicket_iff hwrong⟩
  have hverify : (∃ e, Simulation.verifyTicket env.lib secret ticket now = .error e) ↔
      Raises env.lib secret ticket := verifyTicket_error
  rw [← hverify]
  constructor
  · rintro ⟨r, hr, -⟩ ⟨e, he⟩
    rw [hr] at he
    cases he
  · intro hraises
    cases hverified : Simulation.verifyTicket env.lib secret ticket now with
    | error e => exact absurd ⟨e, hverified⟩ hraises
    | ok r => exact ⟨r, rfl, isSome_of_verifyTicket hsecret hverified⟩

/-- A deployment with a presenter. -/
def Env.presented : Env :=
  { Env.standIn with settings := { Settings.default with simulationSecret := "secret" } }

/-- A ticket of ASCII garbage and a wrong secret are refused. -/
theorem tickets_refused_garbage :
    (∃ r, Simulation.verifyTicket Library.standIn "secret" (some "abc.def") 0 = .ok r ∧
      (r.isSome = true ↔ SignedAndLive Library.standIn "secret" (some "abc.def") 0)) ∧
    postSimulationTicket .presented .toZero ⟨some "jp", none⟩ (some "wrong") 0 =
      .error ⟨404, "not found"⟩ := by
  constructor
  · refine ((tickets_refused_iff .presented 0).1 "secret" (some "abc.def") (by decide)).mpr ?_
    rintro ⟨payload, signature, hparts, hcause⟩
    have hsplit : ticketParts "secret" (some "abc.def") = some ("abc", "def") := by decide
    obtain ⟨rfl, rfl⟩ := Prod.mk.inj (Option.some.inj (hsplit.symm.trans hparts))
    rcases hcause with hascii | ⟨hsigned, -⟩
    · cases hascii
    · revert hsigned
      decide +kernel
  · exact ((tickets_refused_iff .presented 0).2 .toZero ⟨some "jp", none⟩ (some "wrong")
      (by decide)).mpr (by decide)

/-- Text that is not ASCII cannot be compared. -/
theorem not_tickets_refused :
    (¬ ∀ (lib : Library) (secret : String) (ticket : Option String) (now : ℚ), secret ≠ "" →
      ∃ r, Simulation.verifyTicket lib secret ticket now = .ok r) ∧
    ¬ ∀ (env : Env) (R : Rounding) (body : SimulationTicketRequest) (secret : Option String)
      (now : ℚ), secret ≠ some env.settings.simulationSecret →
      postSimulationTicket env R body secret now = .error ⟨404, "not found"⟩ := by
  constructor
  · intro h
    obtain ⟨r, hr⟩ := h .standIn "secret" (some "abc.dé") 0 (by decide)
    have hparts : ticketParts "secret" (some "abc.dé") = some ("abc", "dé") := by decide
    rw [verifyTicket_of_parts hparts, if_neg (by decide)] at hr
    cases hr
  · intro h
    have hfound := h .presented .toZero ⟨some "jp", none⟩ (some "é") 0 (by decide)
    rw [postSimulationTicket_iff (by decide)] at hfound
    have hascii := (hfound "é" (by decide) (by decide)).1
    revert hascii
    decide

/-! ## Issued tickets -/

variable {lib : Library} {secret : String}

/-- **Tickets round-trip until they expire.**  With JSON that is read as it was
written, a ticket that was issued at `now` for `ttlSeconds` verifies with the values it was
issued for, exactly before the second `int(now + ttlSeconds)` of the rounded sum, which is
what is reported as its expiry; under a secret that signs its payload differently it does
not. -/
theorem ticket_round_trip (hsecret : secret ≠ "") (country asn : Option String)
    (ttlSeconds : ℤ) (now : ℚ) {expires : ℤ}
    (hexpires : IsIntPart (R.round (now + R.round ttlSeconds)) expires)
    (hjson : lib.jsonLoads (encodeUtf8 (lib.jsonDumps (payloadObject country asn expires))) =
      .ok (payloadObject country asn expires)) :
    (∀ m : ℚ, Simulation.verifyTicket lib secret
        (some (issueTicket lib R secret country asn ttlSeconds now).1) m =
      .ok (if m < expires then some ⟨.ofText country, .ofText asn⟩ else none)) ∧
    (issueTicket lib R secret country asn ttlSeconds now).2 = expires ∧
    ∀ (secret' : String) (m : ℚ), (∀ payload signature,
        partition (issueTicket lib R secret country asn ttlSeconds now).1 '.' =
          (payload, true, signature) →
        lib.hmacSha256 (encodeUtf8 secret') (encodeUtf8 payload) ≠
          lib.hmacSha256 (encodeUtf8 secret) (encodeUtf8 payload)) →
      Simulation.verifyTicket lib secret'
        (some (issueTicket lib R secret country asn ttlSeconds now).1) m = .ok none := by
  obtain rfl : expiry R ttlSeconds now = expires := isIntPart_iff.mp hexpires
  let expires := expiry R ttlSeconds now
  let payload := b64 (encodeUtf8 (lib.jsonDumps (payloadObject country asn expires)))
  -- the first dot of the ticket is the one between its parts
  have hsplit : partition (issueTicket lib R secret country asn ttlSeconds now).1 '.' =
      (payload, true, sign lib secret payload) := by
    have hdot : '.' ∉ payload.toList := fun h => (mem_b64 h).2 rfl
    have htext : (issueTicket lib R secret country asn ttlSeconds now).1 =
        payload ++ (String.singleton '.' ++ sign lib secret payload) := by
      rw [← String.append_assoc]
      rfl
    rw [htext, partition_of_mem hdot]
  refine ⟨fun m => ?_, ?_, fun secret' m hdiffers => ?_⟩
  · have hread : readPayload lib payload = .ok (payloadObject country asn expires, expires) := by
      simp only [readPayload, payload, unb64_b64, Bind.bind, Except.bind]
      rw [hjson]
      rfl
    rw [verifyTicket_of_parts (ticketParts_of_split hsecret hsplit)]
    simp only [isAscii_sign, if_true, readSignals, hread]
    by_cases hlate : (expires : ℚ) ≤ m
    · rw [if_pos hlate, if_neg (not_lt.mpr hlate)]
    · rw [if_neg hlate, if_pos (not_le.mp hlate)]
      rfl
  · exact R.round_of_isDouble _ (isDouble_truncate (R.isDouble_round _))
  · by_cases hempty : secret' = ""
    · simp [Simulation.verifyTicket, ticketParts, hempty]
    · have hforged : sign lib secret payload ≠ sign lib secret' payload := fun h =>
        hdiffers payload _ hsplit (b64_injective h).symm
      rw [verifyTicket_of_parts (ticketParts_of_split hempty hsplit)]
      simp only [isAscii_sign, if_true, if_neg hforged]

/-- A ticket issued at second 1000 for a minute verifies at second 1059, and not at 1060. -/
theorem ticket_round_trip_minute :
    Simulation.verifyTicket .standIn "secret"
        (some (issueTicket .standIn .toZero "secret" (some "JP") (some "2516") 60 1000).1) 1059 =
      .ok (some ⟨.str "JP", .str "2516"⟩) ∧
    Simulation.verifyTicket .standIn "secret"
        (some (issueTicket .standIn .toZero "secret" (some "JP") (some "2516") 60 1000).1) 1060 =
      .ok none := by
  have hround : ∀ n : ℤ, |n| ≤ 2 ^ 53 → Rounding.toZero.round n = n := fun n hn =>
    Rounding.toZero.round_of_isDouble _ (isDouble_int hn)
  have hexpires : IsIntPart
      (Rounding.toZero.round (1000 + Rounding.toZero.round (60 : ℤ))) 1060 := by
    have hadd : (1000 : ℚ) + (60 : ℤ) = (1060 : ℤ) := by norm_num
    rw [hround 60 (by norm_num), hadd, hround 1060 (by norm_num)]
    constructor <;> norm_num
  have hbytes : encodeUtf8 (Library.standIn.jsonDumps
      (payloadObject (some "JP") (some "2516") 1060)) =
      "\x7b\"c\":\"JP\",\"a\":\"2516\",\"exp\":1060\x7d".toList.map
        fun c => UInt8.ofNat c.toNat := by
    decide +kernel
  have hjson : Library.standIn.jsonLoads (encodeUtf8 (Library.standIn.jsonDumps
      (payloadObject (some "JP") (some "2516") 1060))) =
      .ok (payloadObject (some "JP") (some "2516") 1060) := by
    rw [hbytes]
    rfl
  have hverifies := (ticket_round_trip (by decide : "secret" ≠ "") (some "JP") (some "2516") 60 1000
    hexpires hjson).1
  rw [hverifies, hverifies]
  constructor
  · norm_num [Json.ofText]
  · norm_num

end RbaIdp
