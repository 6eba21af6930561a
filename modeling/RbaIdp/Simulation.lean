import RbaIdp.Encoding.Base64
import RbaIdp.Environment

/-!
# Simulation tickets

`simulation.py`: an override of the login signals, signed with the presenter's secret.
A ticket is the base64url text of a JSON payload, a dot, and the base64url HMAC of that
text.
-/

namespace RbaIdp

namespace Simulation

open Encoding

variable (lib : Library)

/-- `str.encode()` -/
def encodeUtf8 (s : String) : Bytes := s.toUTF8.toList

def isAscii (s : String) : Bool := s.toList.all fun c => c.toNat < 128

/-! ## Pieces -/

/-- `_b64` -/
def b64 (data : Bytes) : String :=
  String.ofList ((urlsafe.encode data).rdropWhile (· == '='))

/-- `_unb64`: a text that is not ASCII and an incomplete group are `ValueError`s. -/
def unb64 (text : String) : Except PyException Bytes :=
  if isAscii text then
    let padding := (4 - text.toList.length % 4) % 4
    (urlsafe.decode (text.toList ++ List.replicate padding '=')).elim (.error .valueError) .ok
  else .error .valueError

/-- `_sign` -/
def sign (secret payload : String) : String :=
  b64 (lib.hmacSha256 (encodeUtf8 secret) (encodeUtf8 payload))

/-- `hmac.compare_digest` of two texts -/
def compareDigest (a b : String) : Except PyException Bool :=
  if isAscii a && isAscii b then .ok (a == b) else .error .typeError

/-- The digits of a numeral; single underscores may stand between them. -/
def readDigits (value : ℕ) : List Char → Option ℕ
  | [] => some value
  | '_' :: c :: rest => (lib.decimal c).bind fun d => readDigits (value * 10 + d) rest
  | c :: rest => (lib.decimal c).bind fun d => readDigits (value * 10 + d) rest

/-- The most digits `int` reads. -/
def maxStrDigits : ℕ := 4300

/-- `int` of a text -/
def intOfText (s : String) : Option ℤ :=
  let text := (strip s).toList
  let digits := if text.head? = some '-' ∨ text.head? = some '+' then text.drop 1 else text
  if digits = [] ∨ digits.head? = some '_' ∨ maxStrDigits < (digits.filter (· ≠ '_')).length then
    none
  else
    (readDigits lib 0 digits).map fun n => if text.head? = some '-' then -(n : ℤ) else n

/-- `int` of a JSON value -/
def pyInt : Json → Except PyException ℤ
  | .int n => .ok n
  | .bool b => .ok (if b then 1 else 0)
  | .float x => .ok (truncate x)
  | .infinity _ => .error .overflowError
  | .nan => .error .valueError
  | .str s => (intOfText lib s).elim (.error .valueError) .ok
  | _ => .error .typeError

/-! ## Tickets -/

/-- Rounding to a float.  The exponents are not bounded: no time is near the largest
float. -/
def IsDouble (q : ℚ) : Prop := ∃ m e : ℤ, |m| ≤ 2 ^ 53 ∧ q = m * 2 ^ e

structure Rounding where
  round : ℚ → ℚ
  isDouble_round : ∀ q, IsDouble (round q)
  round_of_isDouble : ∀ q, IsDouble q → round q = q

/-- The JSON object of a payload. -/
def payloadObject (country asn : Option String) (expires : ℤ) : Json :=
  .obj [("c", .ofText country), ("a", .ofText asn), ("exp", .int expires)]

/-- `int(now + ttl_seconds)` -/
def expiry (R : Rounding) (ttlSeconds : ℤ) (now : ℚ) : ℤ :=
  truncate (R.round (now + R.round ttlSeconds))

/-- `issue_ticket`: the ticket, and when it expires. -/
def issueTicket (R : Rounding) (secret : String) (country asn : Option String) (ttlSeconds : ℤ)
    (now : ℚ) : String × ℚ :=
  let expires := expiry R ttlSeconds now
  let payload := b64 (encodeUtf8 (lib.jsonDumps (payloadObject country asn expires)))
  (payload ++ "." ++ sign lib secret payload, R.round expires)

/-- The signals a ticket carries, whatever JSON values they are. -/
structure SimulatedSignals where
  country : Json
  asn : Json

/-- The two parts of a ticket, where there is a secret to check it with. -/
def ticketParts (secret : String) (ticket : Option String) : Option (String × String) :=
  if secret = "" then none
  else
    (nonEmpty ticket).bind fun ticket =>
      match partition ticket '.' with
      | (payload, true, signature) => some (payload, signature)
      | (_, false, _) => none

/-- What a signed payload says, and when it expires. -/
def readPayload (payload : String) : Except PyException (Json × ℤ) := do
  let bytes ← unb64 payload
  let data ← lib.jsonLoads bytes
  let exp ← data.subscript "exp"
  let expires ← pyInt lib exp
  return (data, expires)

/-- The exceptions `verify_ticket` expects of a payload. -/
def isCaught : PyException → Bool
  | .valueError | .keyError | .typeError => true
  | .overflowError | .recursionError => false

/-- What `verify_ticket` makes of a signed payload. -/
def readSignals (payload : String) (now : ℚ) : Except PyException (Option SimulatedSignals) :=
  match readPayload lib payload with
  | .error e => if isCaught e then .ok none else .error e
  | .ok (data, expires) =>
      if (expires : ℚ) ≤ now then .ok none
      else .ok (some ⟨(data.get? "c").getD .null, (data.get? "a").getD .null⟩)

/-- `verify_ticket` -/
def verifyTicket (secret : String) (ticket : Option String) (now : ℚ) :
    Except PyException (Option SimulatedSignals) :=
  match ticketParts secret ticket with
  | none => .ok none
  | some (payload, signature) =>
      match compareDigest signature (sign lib secret payload) with
      | .error e => .error e
      | .ok false => .ok none
      | .ok true => readSignals lib payload now

variable {lib} {secret : String} {ticket : Option String} {now : ℚ}

theorem ticketParts_eq_some {payload signature : String}
    (h : ticketParts secret ticket = some (payload, signature)) :
    secret ≠ "" ∧ ∃ text, ticket = some text ∧
      partition text '.' = (payload, true, signature) := by
  unfold ticketParts at h
  obtain ⟨hsecret, h⟩ := (Option.ite_none_left_eq_some).mp h
  obtain ⟨text, htext, hsplit⟩ := Option.bind_eq_some_iff.mp h
  refine ⟨hsecret, text, (Option.filter_eq_some_iff.mp htext).1, ?_⟩
  split at hsplit
  · next hpartition =>
    cases hsplit
    exact hpartition
  · cases hsplit

theorem compareDigest_eq_true {a b : String} (h : compareDigest a b = .ok true) : a = b := by
  unfold compareDigest at h
  split at h
  · simpa using h
  · cases h

theorem readSignals_eq_some {payload : String} {signals : SimulatedSignals}
    (h : readSignals lib payload now = .ok (some signals)) :
    ∃ data, readPayload lib payload = .ok data ∧ now < data.2 := by
  unfold readSignals at h
  split at h
  · split at h
    · cases h
    · cases h
  · next data expires hread =>
    split at h
    · cases h
    · next hlate => exact ⟨(data, expires), hread, not_le.mp hlate⟩

/-- What lies behind the signals of a ticket. -/
theorem verifyTicket_eq_some {signals : SimulatedSignals}
    (h : verifyTicket lib secret ticket now = .ok (some signals)) :
    ∃ payload signature data, ticketParts secret ticket = some (payload, signature) ∧
      signature = sign lib secret payload ∧ readPayload lib payload = .ok data ∧
      now < data.2 := by
  unfold verifyTicket at h
  split at h
  · cases h
  · next payload signature hparts =>
    split at h
    · cases h
    · cases h
    · next hsame =>
      obtain ⟨data, hread, hlate⟩ := readSignals_eq_some h
      exact ⟨payload, signature, data, hparts, compareDigest_eq_true hsame, hread, hlate⟩

end Simulation

end RbaIdp
