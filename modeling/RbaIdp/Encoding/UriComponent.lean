import Mathlib.Data.List.Basic
import RbaIdp.Encoding.Query

/-!
# Components of URIs

Percent-encoding of one component, as ECMAScript has it.  Reading is strict: an escape that
is none, and bytes that are not UTF-8, are errors.  What was written is read
(`decodeURIComponent_encodeURIComponent`).
-/

namespace Encoding.UriComponent

open Query

/-! ## Writing -/

/-- The characters that are never escaped: letters, digits and nine marks. -/
def unescaped (c : Char) : Bool :=
  c.isAlphanum || [33, 39, 40, 41, 42, 45, 46, 95, 126].contains c.toNat

def escape (b : UInt8) : List Char :=
  if unescaped (Char.ofNat b.toNat) then [Char.ofNat b.toNat]
  else ['%', hexDigit (b.toNat / 16), hexDigit (b.toNat % 16)]

def encodeURIComponent (text : List Char) : List Char := (Utf8.encode text).flatMap escape

/-! ## Reading -/

/-- The bytes of a text with escapes. -/
def octets : List Char → Option (List UInt8)
  | [] => some []
  | '%' :: high :: low :: rest =>
      match hexValue? high, hexValue? low with
      | some h, some l => (octets rest).map (UInt8.ofNat (h * 16 + l) :: ·)
      | _, _ => none
  | '%' :: _ => none
  | c :: rest => (octets rest).map (String.utf8EncodeChar c ++ ·)

/-- None is a `URIError`: bytes are UTF-8 when they are what their characters are written as. -/
def decodeURIComponent (text : List Char) : Option (List Char) :=
  (octets text).bind fun bytes =>
    let decoded := Utf8.decode bytes
    if Utf8.encode decoded = bytes then some decoded else none

/-! ## What was written -/

variable {rest : List Char}

theorem unescaped_lt {c : Char} (h : unescaped c = true) : c.toNat < 127 ∧ c.toNat ≠ 37 ∧
    c.toNat ≠ 47 := by
  rw [unescaped, Bool.or_eq_true, Ascii.isAlphanum_iff] at h
  simp only [List.contains_eq_mem, List.mem_cons, List.not_mem_nil, or_false,
    decide_eq_true_eq] at h
  omega

theorem utf8EncodeChar_ascii {c : Char} (h : c.toNat < 128) :
    String.utf8EncodeChar c = [UInt8.ofNat c.toNat] := by
  have hsize : c.utf8Size = 1 := Char.utf8Size_eq_one_iff.mpr (by
    rw [UInt32.le_iff_toNat_le]
    exact Nat.le_of_lt_succ h)
  rw [String.utf8EncodeChar_eq_singleton hsize]
  rfl

theorem octets_cons {c : Char} (h : c ≠ '%') :
    octets (c :: rest) = (octets rest).map (String.utf8EncodeChar c ++ ·) := by
  rw [octets]
  · rintro high low rest' rfl
    exact absurd rfl h
  · rintro rfl
    exact absurd rfl h

theorem octets_escape {high low : Char} {h l : ℕ} (hh : hexValue? high = some h)
    (hl : hexValue? low = some l) : octets ('%' :: high :: low :: rest) =
      (octets rest).map (UInt8.ofNat (h * 16 + l) :: ·) := by
  rw [octets, hh, hl]

theorem escape_cases (b : UInt8) :
    (∃ c, unescaped c = true ∧ UInt8.ofNat c.toNat = b ∧ escape b = [c]) ∨
    escape b = ['%', hexDigit (b.toNat / 16), hexDigit (b.toNat % 16)] := by
  unfold escape
  split
  · next hplain =>
    have hvalid : b.toNat.isValidChar := Or.inl (by have := b.toNat_lt; omega)
    have hchar : (Char.ofNat b.toNat).toNat = b.toNat := by
      rw [Char.ofNat, dif_pos hvalid]
      rfl
    exact Or.inl ⟨Char.ofNat b.toNat, hplain, by rw [hchar, UInt8.ofNat_toNat], rfl⟩
  · exact Or.inr rfl

theorem octets_escaped (b : UInt8) :
    octets (escape b ++ rest) = (octets rest).map (b :: ·) := by
  have hb := b.toNat_lt
  rcases escape_cases b with ⟨c, hc, rfl, hescape⟩ | hescape
  · obtain ⟨hlt, hpercent, -⟩ := unescaped_lt hc
    have hne : c ≠ '%' := fun h => hpercent (congrArg Char.toNat h)
    rw [hescape, List.singleton_append, octets_cons hne, utf8EncodeChar_ascii (by omega)]
    rfl
  · obtain ⟨-, hhigh⟩ := hexDigit_spec (b.toNat / 16) (by omega)
    obtain ⟨-, hlow⟩ := hexDigit_spec (b.toNat % 16) (by omega)
    have hvalue : b.toNat / 16 * 16 + b.toNat % 16 = b.toNat := by omega
    rw [hescape]
    simp only [List.cons_append, List.nil_append]
    rw [octets_escape hhigh hlow, hvalue, UInt8.ofNat_toNat]

theorem octets_encoded (bytes : List UInt8) : octets (bytes.flatMap escape) = some bytes := by
  induction bytes with
  | nil => rfl
  | cons b bytes ih => rw [List.flatMap_cons, octets_escaped, ih, Option.map_some]

/-- What was written is read. -/
theorem decodeURIComponent_encodeURIComponent (text : List Char) :
    decodeURIComponent (encodeURIComponent text) = some text := by
  rw [decodeURIComponent, encodeURIComponent, octets_encoded, Option.bind_some]
  simp [Utf8.decode_encode]

theorem slash_not_mem (text : List Char) : '/' ∉ encodeURIComponent text := by
  intro hmem
  obtain ⟨b, -, hb⟩ := List.mem_flatMap.mp hmem
  have hlt := b.toNat_lt
  rcases escape_cases b with ⟨c, hc, -, hescape⟩ | hescape
  · rw [hescape, List.mem_singleton] at hb
    exact (unescaped_lt hc).2.2 (congrArg Char.toNat hb.symm)
  · rw [hescape] at hb
    have hhigh := (hexDigit_spec (b.toNat / 16) (by omega)).1
    have hlow := (hexDigit_spec (b.toNat % 16) (by omega)).1
    simp only [List.mem_cons, List.not_mem_nil, or_false] at hb
    rcases hb with hb | hb | hb
    · cases hb
    · rw [← hb] at hhigh
      cases hhigh
    · rw [← hb] at hlow
      cases hlow

/-! ## What is read -/

theorem octets_eq_nil {text : List Char} (h : octets text = some []) : text = [] := by
  unfold octets at h
  split at h
  · rfl
  · split at h
    · simp at h
    · cases h
  · cases h
  · obtain ⟨bytes, -, hnil⟩ := Option.map_eq_some_iff.mp h
    exact absurd (List.append_eq_nil_iff.mp hnil).1 String.utf8EncodeChar_ne_nil

theorem hexValue?_eq_some {c : Char} {n : ℕ} (h : hexValue? c = some n) :
    n < 10 ∧ c.toNat = n + 48 ∨ 10 ≤ n ∧ n < 16 ∧ (c.toNat = n + 55 ∨ c.toNat = n + 87) := by
  unfold hexValue? at h
  simp only [Char.le_def, UInt32.le_iff_toNat_le] at h
  have hnat : c.toNat = c.val.toNat := rfl
  have h0 : '0'.val.toNat = 48 := rfl
  have h9 : '9'.val.toNat = 57 := rfl
  have hA : 'A'.val.toNat = 65 := rfl
  have hF : 'F'.val.toNat = 70 := rfl
  have ha : 'a'.val.toNat = 97 := rfl
  have hf : 'f'.val.toNat = 102 := rfl
  split_ifs at h <;> simp only [Option.some.injEq] at h <;> omega

/-- A first character that is ASCII was written as it is, or escaped. -/
theorem octets_eq_append {text : List Char} {bytes : List UInt8} {d : Char} (hd : d.toNat < 128)
    (h : octets text = some (String.utf8EncodeChar d ++ bytes)) :
    ∃ rest, octets rest = some bytes ∧ (text = d :: rest ∨ ∃ high low h l,
      hexValue? high = some h ∧ hexValue? low = some l ∧ h * 16 + l = d.toNat ∧
        text = '%' :: high :: low :: rest) := by
  unfold octets at h
  split at h
  · simp [utf8EncodeChar_ascii hd] at h
  · next high low rest =>
    split at h
    · next h₁ l₁ hhigh hlow =>
      obtain ⟨bytes', hrest, hbytes⟩ := Option.map_eq_some_iff.mp h
      rw [utf8EncodeChar_ascii hd, List.singleton_append, List.cons.injEq] at hbytes
      obtain ⟨hbyte, rfl⟩ := hbytes
      have hnat := congrArg UInt8.toNat hbyte
      have hvalue : h₁ * 16 + l₁ = d.toNat := by
        have := hexValue?_eq_some hhigh
        have := hexValue?_eq_some hlow
        rw [UInt8.toNat_ofNat', UInt8.toNat_ofNat'] at hnat
        omega
      exact ⟨rest, hrest, Or.inr ⟨high, low, h₁, l₁, hhigh, hlow, hvalue, rfl⟩⟩
    · cases h
  · cases h
  · next c rest _ _ =>
    obtain ⟨bytes', hrest, hbytes⟩ := Option.map_eq_some_iff.mp h
    -- the bytes of one character are followed by others: reading them shows which it is
    have hread := congrArg Utf8.decode hbytes
    simp only [Utf8.decode, Utf8.decodeFrom_encode, List.cons.injEq] at hread
    obtain ⟨rfl, -⟩ := hread
    exact ⟨rest, by rw [hrest, List.append_cancel_left hbytes], Or.inl rfl⟩

theorem octets_dot {text : List Char} {bytes : List UInt8}
    (h : octets text = some (String.utf8EncodeChar '.' ++ bytes)) :
    ∃ rest, octets rest = some bytes ∧
      (text = '.' :: rest ∨ text = '%' :: '2' :: 'e' :: rest ∨
        text = '%' :: '2' :: 'E' :: rest) := by
  obtain ⟨rest, hrest, rfl | ⟨high, low, h₁, l₁, hhigh, hlow, hvalue, rfl⟩⟩ :=
    octets_eq_append (by decide) h
  · exact ⟨rest, hrest, Or.inl rfl⟩
  · have hdot : '.'.toNat = 46 := rfl
    have hhigh' : high.toNat = '2'.toNat := by
      have := hexValue?_eq_some hhigh
      have := hexValue?_eq_some hlow
      have h2 : '2'.toNat = 50 := rfl
      omega
    have hlow' : low.toNat = 'e'.toNat ∨ low.toNat = 'E'.toNat := by
      have := hexValue?_eq_some hhigh
      have := hexValue?_eq_some hlow
      have he : 'e'.toNat = 101 := rfl
      have hE : 'E'.toNat = 69 := rfl
      omega
    obtain rfl : high = '2' := Char.toNat_inj.mp hhigh'
    refine ⟨rest, hrest, Or.inr ?_⟩
    rcases hlow' with hlow' | hlow'
    · obtain rfl : low = 'e' := Char.toNat_inj.mp hlow'
      exact Or.inl rfl
    · obtain rfl : low = 'E' := Char.toNat_inj.mp hlow'
      exact Or.inr rfl

/-- What is read is what the bytes are written for. -/
theorem octets_of_decode {text decoded : List Char} (h : decodeURIComponent text = some decoded) :
    octets text = some (Utf8.encode decoded) := by
  obtain ⟨bytes, hbytes, hdecoded⟩ := Option.bind_eq_some_iff.mp h
  simp only [Option.ite_none_right_eq_some, Option.some.injEq] at hdecoded
  obtain ⟨hvalid, rfl⟩ := hdecoded
  rw [hbytes, hvalid]

end Encoding.UriComponent
