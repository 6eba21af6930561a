import Mathlib.Data.List.Basic

/-!
# UTF-8

A decoder that reads one byte at a time and never fails: it writes a replacement character
for the longest beginning of a character that does not go on, and reads on with the byte
that was not expected.  It reads back what was encoded (`decode_encode`), character
by character (`decodeFrom_encode`): the cases are the four lengths of a character.
-/

namespace Encoding.Utf8

/-- A character that has begun: how many bytes are missing, the bits so far, and the
values the next byte may have. -/
structure Pending where
  missing : ℕ
  value : ℕ
  lower : ℕ
  upper : ℕ

def replacement : Char := '\ufffd'

/-- What a byte writes and leaves pending when nothing was pending. -/
def begin (b : ℕ) : List Char × Option Pending :=
  if b < 0x80 then ([Char.ofNat b], none)
  else if b < 0xC2 then ([replacement], none)
  else if b < 0xE0 then ([], some ⟨1, b % 32, 0x80, 0xBF⟩)
  else if b < 0xF0 then
    -- neither overlong forms nor surrogates
    ([], some ⟨2, b % 16, if b = 0xE0 then 0xA0 else 0x80, if b = 0xED then 0x9F else 0xBF⟩)
  else if b < 0xF5 then
    -- neither overlong forms nor values beyond the last character
    ([], some ⟨3, b % 8, if b = 0xF0 then 0x90 else 0x80, if b = 0xF4 then 0x8F else 0xBF⟩)
  else ([replacement], none)

/-- What a byte writes and leaves pending. -/
def advance : Option Pending → ℕ → List Char × Option Pending
  | none, b => begin b
  | some p, b =>
      if p.lower ≤ b ∧ b ≤ p.upper then
        if p.missing = 1 then ([Char.ofNat (p.value * 64 + b % 64)], none)
        else ([], some ⟨p.missing - 1, p.value * 64 + b % 64, 0x80, 0xBF⟩)
      else (replacement :: (begin b).1, (begin b).2)

def decodeFrom : Option Pending → List UInt8 → List Char
  | none, [] => []
  | some _, [] => [replacement]
  | pending, b :: rest =>
      (advance pending b.toNat).1 ++ decodeFrom (advance pending b.toNat).2 rest

/-- The decoder, with replacements. -/
def decode (bytes : List UInt8) : List Char := decodeFrom none bytes

def encode (text : List Char) : List UInt8 := text.flatMap String.utf8EncodeChar

/-! ## What was encoded is read -/

variable {n v missing lower upper : ℕ} {rest : List UInt8}

theorem decodeFrom_ofNat {pending : Option Pending} (hn : n < 256) :
    decodeFrom pending (UInt8.ofNat n :: rest) =
      (advance pending n).1 ++ decodeFrom (advance pending n).2 rest := by
  have hbyte : (UInt8.ofNat n).toNat = n := by
    rw [UInt8.toNat_ofNat']
    exact Nat.mod_eq_of_lt hn
  cases pending <;> rw [decodeFrom, hbyte]

/-- A byte that goes on with a character. -/
theorem decodeFrom_middle (hn : n < 256) (hrange : lower ≤ n ∧ n ≤ upper) :
    decodeFrom (some ⟨missing + 2, v, lower, upper⟩) (UInt8.ofNat n :: rest) =
      decodeFrom (some ⟨missing + 1, v * 64 + n % 64, 0x80, 0xBF⟩) rest := by
  have hmore : ¬ missing + 2 = 1 := by omega
  rw [decodeFrom_ofNat hn, advance, if_pos hrange, if_neg hmore]
  rfl

/-- A byte that ends a character. -/
theorem decodeFrom_last (hn : n < 256) (hrange : lower ≤ n ∧ n ≤ upper) :
    decodeFrom (some ⟨1, v, lower, upper⟩) (UInt8.ofNat n :: rest) =
      Char.ofNat (v * 64 + n % 64) :: decodeFrom none rest := by
  rw [decodeFrom_ofNat hn, advance, if_pos hrange, if_pos rfl]
  rfl

/-- A byte that begins a character of several. -/
theorem decodeFrom_begin {pending : Pending} (hn : n < 256)
    (hbegin : begin n = ([], some pending)) :
    decodeFrom none (UInt8.ofNat n :: rest) = decodeFrom (some pending) rest := by
  rw [decodeFrom_ofNat hn, advance, hbegin]
  rfl

theorem decodeFrom_encode (c : Char) :
    decodeFrom none (String.utf8EncodeChar c ++ rest) = c :: decodeFrom none rest := by
  have hvalid : c.val.toNat < 0xD800 ∨ 0xDFFF < c.val.toNat ∧ c.val.toNat < 0x110000 := c.valid
  have hchar : Char.ofNat c.val.toNat = c := Char.ofNat_toNat c
  unfold String.utf8EncodeChar
  generalize c.val.toNat = v at hvalid hchar
  simp only
  split
  · next hone =>
    have hbegin : begin v = ([Char.ofNat v], none) := by
      unfold begin
      rw [if_pos (by omega)]
    rw [List.singleton_append, decodeFrom_ofNat (by omega), advance, hbegin, hchar]
    rfl
  split
  · next hone htwo =>
    have hbegin : begin (v / 64 % 0x20 + 0xc0) = ([], some ⟨1, v / 64, 0x80, 0xBF⟩) := by
      unfold begin
      rw [if_neg (by omega), if_neg (by omega), if_pos (by omega)]
      have hbits : (v / 64 % 32 + 192) % 32 = v / 64 := by omega
      rw [hbits]
    simp only [List.cons_append, List.nil_append]
    rw [decodeFrom_begin (by omega) hbegin, decodeFrom_last (by omega) (by omega)]
    have hvalue : v / 64 * 64 + (v % 64 + 128) % 64 = v := by omega
    rw [hvalue, hchar]
  split
  · next hone htwo hthree =>
    have hbegin : begin (v / 4096 % 0x10 + 0xe0) = ([], some ⟨2, v / 4096,
        if v / 4096 + 0xe0 = 0xE0 then 0xA0 else 0x80,
        if v / 4096 + 0xe0 = 0xED then 0x9F else 0xBF⟩) := by
      have hfirst : v / 4096 % 0x10 = v / 4096 := by omega
      unfold begin
      rw [hfirst, if_neg (by omega), if_neg (by omega), if_neg (by omega), if_pos (by omega)]
      have hbits : (v / 4096 + 224) % 16 = v / 4096 := by omega
      rw [hbits]
    simp only [List.cons_append, List.nil_append]
    rw [decodeFrom_begin (by omega) hbegin,
      decodeFrom_middle (by omega) ⟨by split_ifs <;> omega, by split_ifs <;> omega⟩,
      decodeFrom_last (by omega) (by omega)]
    have hvalue : (v / 4096 * 64 + (v / 64 % 64 + 128) % 64) * 64 + (v % 64 + 128) % 64 = v := by
      omega
    rw [hvalue, hchar]
  · next hone htwo hthree =>
    have hbegin : begin (v / 262144 % 0x08 + 0xf0) = ([], some ⟨3, v / 262144,
        if v / 262144 + 0xf0 = 0xF0 then 0x90 else 0x80,
        if v / 262144 + 0xf0 = 0xF4 then 0x8F else 0xBF⟩) := by
      have hfirst : v / 262144 % 0x08 = v / 262144 := by omega
      unfold begin
      rw [hfirst, if_neg (by omega), if_neg (by omega), if_neg (by omega), if_neg (by omega),
        if_pos (by omega)]
      have hbits : (v / 262144 + 240) % 8 = v / 262144 := by omega
      rw [hbits]
    simp only [List.cons_append, List.nil_append]
    rw [decodeFrom_begin (by omega) hbegin,
      decodeFrom_middle (by omega) ⟨by split_ifs <;> omega, by split_ifs <;> omega⟩,
      decodeFrom_middle (by omega) (by omega), decodeFrom_last (by omega) (by omega)]
    have hvalue : ((v / 262144 * 64 + (v / 4096 % 64 + 128) % 64) * 64 +
        (v / 64 % 64 + 128) % 64) * 64 + (v % 64 + 128) % 64 = v := by
      omega
    rw [hvalue, hchar]

theorem decode_encode (text : List Char) : decode (encode text) = text := by
  induction text with
  | nil => rfl
  | cons c rest ih =>
      rw [encode, List.flatMap_cons, decode, decodeFrom_encode]
      exact congrArg _ ih

end Encoding.Utf8
