import Mathlib.Data.List.DropRight

/-!
# Base64

An encoder that writes three bytes as four characters of an alphabet and pads the
last group, and a decoder that reads one character at a time.  The decoder is a
lenient one: it skips what is outside the alphabet and stops at padding that completes
a group.  It reads back what the encoder wrote (`decode_encode`), also when the
padding was stripped and put back by counting characters (`decode_repadded`).
-/

namespace Encoding

/-- Sixty-four characters that can be told apart; none is the padding. -/
structure Alphabet where
  char : ℕ → Char
  sextet? : Char → Option ℕ
  sextet?_char : ∀ n < 64, sextet? (char n) = some n
  char_ne_pad : ∀ n < 64, char n ≠ '='

namespace Alphabet

variable (A : Alphabet)

/-! ## Writing -/

/-- The characters that carry the bytes. -/
def data : List UInt8 → List Char
  | [] => []
  | [a] => [A.char (a.toNat / 4), A.char (a.toNat % 4 * 16)]
  | [a, b] =>
      [A.char (a.toNat / 4), A.char (a.toNat % 4 * 16 + b.toNat / 16), A.char (b.toNat % 16 * 4)]
  | a :: b :: c :: rest =>
      A.char (a.toNat / 4) :: A.char (a.toNat % 4 * 16 + b.toNat / 16) ::
        A.char (b.toNat % 16 * 4 + c.toNat / 64) :: A.char (c.toNat % 64) :: data rest

/-- How many padding characters complete the last group. -/
def padding (length : ℕ) : ℕ := (3 - length % 3) % 3

def encode (bytes : List UInt8) : List Char :=
  A.data bytes ++ List.replicate (padding bytes.length) '='

/-! ## Reading -/

/-- Read on from within a group: `quadPos` characters of it were read, the bits not
yet written are `leftover`, and `pads` padding characters came last. -/
def decodeFrom (quadPos leftover pads : ℕ) : List Char → Option (List UInt8)
  | [] => if quadPos = 0 then some [] else none
  | c :: rest =>
      if c = '=' then
        if 2 ≤ quadPos then
          if 4 ≤ quadPos + (pads + 1) then some []
          else decodeFrom quadPos leftover (pads + 1) rest
        else decodeFrom quadPos leftover pads rest
      else
        match A.sextet? c with
        | none => decodeFrom quadPos leftover pads rest
        | some s =>
            match quadPos with
            | 0 => decodeFrom 1 s 0 rest
            | 1 => (decodeFrom 2 (s % 16) 0 rest).map (UInt8.ofNat (leftover * 4 + s / 16) :: ·)
            | 2 => (decodeFrom 3 (s % 4) 0 rest).map (UInt8.ofNat (leftover * 16 + s / 4) :: ·)
            | _ => (decodeFrom 0 0 0 rest).map (UInt8.ofNat (leftover * 64 + s) :: ·)

/-- `none` for a text whose last group is incomplete. -/
def decode (text : List Char) : Option (List UInt8) := A.decodeFrom 0 0 0 text

/-! ## What was written is read -/

variable {A}

/-! A character of the alphabet is read as its value. -/

section Characters

variable {n : ℕ} (hn : n < 64) (leftover pads : ℕ) (rest : List Char)
include hn

theorem decodeFrom_first :
    A.decodeFrom 0 leftover pads (A.char n :: rest) = A.decodeFrom 1 n 0 rest := by
  simp [decodeFrom, A.char_ne_pad n hn, A.sextet?_char n hn]

theorem decodeFrom_second :
    A.decodeFrom 1 leftover pads (A.char n :: rest) =
      (A.decodeFrom 2 (n % 16) 0 rest).map (UInt8.ofNat (leftover * 4 + n / 16) :: ·) := by
  simp [decodeFrom, A.char_ne_pad n hn, A.sextet?_char n hn]

theorem decodeFrom_third :
    A.decodeFrom 2 leftover pads (A.char n :: rest) =
      (A.decodeFrom 3 (n % 4) 0 rest).map (UInt8.ofNat (leftover * 16 + n / 4) :: ·) := by
  simp [decodeFrom, A.char_ne_pad n hn, A.sextet?_char n hn]

theorem decodeFrom_fourth :
    A.decodeFrom 3 leftover pads (A.char n :: rest) =
      (A.decodeFrom 0 0 0 rest).map (UInt8.ofNat (leftover * 64 + n) :: ·) := by
  simp [decodeFrom, A.char_ne_pad n hn, A.sextet?_char n hn]

end Characters

/-- Bits put together again. -/
theorem ofNat_eq {a : UInt8} {n : ℕ} (h : n = a.toNat) : UInt8.ofNat n = a := by
  rw [h]
  exact UInt8.ofNat_toNat

/-- The decoder reads the data with its padding. -/
theorem decode_encode : ∀ bytes : List UInt8, A.decode (A.encode bytes) = some bytes
  | [] => rfl
  | [a] => by
      have ha := a.toNat_lt
      have hbyte : UInt8.ofNat (a.toNat / 4 * 4 + a.toNat % 4 * 16 / 16) = a := ofNat_eq (by omega)
      simp only [decode, encode, data, List.cons_append, List.nil_append]
      rw [decodeFrom_first (by omega), decodeFrom_second (by omega), hbyte]
      rfl
  | [a, b] => by
      have ha := a.toNat_lt
      have hb := b.toNat_lt
      have hfirst : UInt8.ofNat
          (a.toNat / 4 * 4 + (a.toNat % 4 * 16 + b.toNat / 16) / 16) = a := ofNat_eq (by omega)
      have hsecond : UInt8.ofNat
          ((a.toNat % 4 * 16 + b.toNat / 16) % 16 * 16 + b.toNat % 16 * 4 / 4) = b :=
        ofNat_eq (by omega)
      simp only [decode, encode, data, List.cons_append, List.nil_append]
      rw [decodeFrom_first (by omega), decodeFrom_second (by omega), decodeFrom_third (by omega),
        hfirst, hsecond]
      rfl
  | a :: b :: c :: rest => by
      have ha := a.toNat_lt
      have hb := b.toNat_lt
      have hc := c.toNat_lt
      have hfirst : UInt8.ofNat
          (a.toNat / 4 * 4 + (a.toNat % 4 * 16 + b.toNat / 16) / 16) = a := ofNat_eq (by omega)
      have hsecond : UInt8.ofNat ((a.toNat % 4 * 16 + b.toNat / 16) % 16 * 16 +
          (b.toNat % 16 * 4 + c.toNat / 64) / 4) = b := ofNat_eq (by omega)
      have hthird : UInt8.ofNat
          ((b.toNat % 16 * 4 + c.toNat / 64) % 4 * 64 + c.toNat % 64) = c := ofNat_eq (by omega)
      have hpadding : padding (rest.length + 1 + 1 + 1) = padding rest.length := by
        simp only [padding]
        omega
      have hrest : A.decodeFrom 0 0 0
          (A.data rest ++ List.replicate (padding rest.length) '=') = some rest :=
        decode_encode rest
      simp only [decode, encode, data, List.cons_append, List.length_cons, hpadding]
      rw [decodeFrom_first (by omega), decodeFrom_second (by omega), decodeFrom_third (by omega),
        decodeFrom_fourth (by omega), hfirst, hsecond, hthird, hrest]
      rfl

/-- The data are characters of the alphabet. -/
theorem mem_data {c : Char} : ∀ {bytes : List UInt8}, c ∈ A.data bytes → ∃ n < 64, c = A.char n
  | [], hc => by simp [data] at hc
  | [a], hc => by
      have ha := a.toNat_lt
      simp only [data, List.mem_cons, List.not_mem_nil, or_false] at hc
      rcases hc with rfl | rfl
      · exact ⟨_, by omega, rfl⟩
      · exact ⟨_, by omega, rfl⟩
  | [a, b], hc => by
      have ha := a.toNat_lt
      have hb := b.toNat_lt
      simp only [data, List.mem_cons, List.not_mem_nil, or_false] at hc
      rcases hc with rfl | rfl | rfl
      · exact ⟨_, by omega, rfl⟩
      · exact ⟨_, by omega, rfl⟩
      · exact ⟨_, by omega, rfl⟩
  | a :: b :: c :: rest, hc => by
      have ha := a.toNat_lt
      have hb := b.toNat_lt
      have hc' := c.toNat_lt
      simp only [data, List.mem_cons] at hc
      rcases hc with rfl | rfl | rfl | rfl | hc
      · exact ⟨_, by omega, rfl⟩
      · exact ⟨_, by omega, rfl⟩
      · exact ⟨_, by omega, rfl⟩
      · exact ⟨_, by omega, rfl⟩
      · exact mem_data hc

theorem pad_not_mem_data (bytes : List UInt8) : '=' ∉ A.data bytes := by
  intro h
  obtain ⟨n, hn, hpad⟩ := mem_data h
  exact A.char_ne_pad n hn hpad.symm

/-! ## Padding stripped and put back -/

/-- Stripping the padding leaves the data. -/
theorem strip_encode (bytes : List UInt8) :
    (A.encode bytes).rdropWhile (· == '=') = A.data bytes := by
  rw [encode]
  induction padding bytes.length with
  | zero =>
      rw [List.replicate_zero, List.append_nil, List.rdropWhile_eq_self_iff]
      intro hne hlast
      refine pad_not_mem_data (A := A) bytes ?_
      rw [← beq_iff_eq.mp hlast]
      exact List.getLast_mem hne
  | succ k ih =>
      rw [List.replicate_succ', ← List.append_assoc, List.rdropWhile_concat_pos _ _ _ (by simp)]
      exact ih

theorem length_data : ∀ bytes : List UInt8, (A.data bytes).length = (4 * bytes.length + 2) / 3
  | [] => rfl
  | [_] => by simp [data]
  | [_, _] => by simp [data]
  | _ :: _ :: _ :: rest => by
      simp only [data, List.length_cons, length_data rest]
      omega

/-- Counting the characters tells how much padding is missing. -/
theorem padding_eq (bytes : List UInt8) :
    (4 - (A.data bytes).length % 4) % 4 = padding bytes.length := by
  rw [length_data, padding]
  have hresidue : bytes.length % 3 = 0 ∨ bytes.length % 3 = 1 ∨ bytes.length % 3 = 2 := by omega
  rcases hresidue with h | h | h
  · omega
  · omega
  · omega

/-- The padding may be stripped and put back. -/
theorem decode_repadded (bytes : List UInt8) :
    A.decode (A.data bytes ++ List.replicate ((4 - (A.data bytes).length % 4) % 4) '=') =
      some bytes := by
  rw [padding_eq]
  exact decode_encode bytes

/-- Different bytes are written differently, with or without padding. -/
theorem data_injective : Function.Injective A.data := by
  intro bytes bytes' h
  have hread := decode_repadded (A := A) bytes
  rw [h, decode_repadded] at hread
  exact (Option.some.inj hread).symm

end Alphabet

/-! ## Alphabets -/

/-- The letters and digits, and the two characters that come last. -/
def base64Char (plus slash : Char) (n : ℕ) : Char :=
  if n < 26 then Char.ofNat (n + 65)
  else if n < 52 then Char.ofNat (n - 26 + 97)
  else if n < 62 then Char.ofNat (n - 52 + 48)
  else if n = 62 then plus
  else slash

/-- The value of a character of the standard alphabet. -/
def sextet? (c : Char) : Option ℕ :=
  if 'A' ≤ c ∧ c ≤ 'Z' then some (c.toNat - 65)
  else if 'a' ≤ c ∧ c ≤ 'z' then some (c.toNat - 97 + 26)
  else if '0' ≤ c ∧ c ≤ '9' then some (c.toNat - 48 + 52)
  else if c = '+' then some 62
  else if c = '/' then some 63
  else none

def standard : Alphabet where
  char := base64Char '+' '/'
  sextet? := sextet?
  sextet?_char := by decide
  char_ne_pad := by decide

/-- What `-` and `_` stand for in texts that go into URLs; the standard characters are
still read. -/
def urlsafe : Alphabet where
  char := base64Char '-' '_'
  sextet? := fun c => sextet? (if c = '-' then '+' else if c = '_' then '/' else c)
  sextet?_char := by decide
  char_ne_pad := by decide

end Encoding
