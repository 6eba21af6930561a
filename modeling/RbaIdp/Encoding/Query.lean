import Mathlib.Data.List.Basic
import RbaIdp.Encoding.Ascii
import RbaIdp.Encoding.Utf8

/-!
# Queries of URLs

The pairs of names and values in a query, percent-encoded.  Reading is lenient: what is
not an escape is left as it is, bytes that are not UTF-8 are replaced, and a part without
`=` has a blank value.  What was written is read (`parseQsl_urlencode`): writing leaves
only plain characters (`plain_of_mem_quotePlus`), which neither separate nor end anything,
and an escape is read as the byte it was written for (`unquoteToBytes_quoteByte`).
-/

namespace Encoding.Query

/-! ## Writing -/

/-- The characters that are never escaped. -/
def unreserved (c : Char) : Bool := c.isAlphanum || c == '_' || c == '.' || c == '-' || c == '~'

def hexDigit (n : ℕ) : Char := if n < 10 then Char.ofNat (n + 48) else Char.ofNat (n - 10 + 65)

def quoteByte (b : UInt8) : List Char :=
  if b = 32 then ['+']
  else if unreserved (Char.ofNat b.toNat) then [Char.ofNat b.toNat]
  else ['%', hexDigit (b.toNat / 16), hexDigit (b.toNat % 16)]

/-- `quote_plus` -/
def quotePlus (text : List Char) : List Char := (Utf8.encode text).flatMap quoteByte

def quotePair (pair : List Char × List Char) : List Char :=
  quotePlus pair.1 ++ '=' :: quotePlus pair.2

/-- `urlencode` -/
def urlencode (pairs : List (List Char × List Char)) : List Char :=
  ['&'].intercalate (pairs.map quotePair)

/-! ## Reading -/

def hexValue? (c : Char) : Option ℕ :=
  if '0' ≤ c ∧ c ≤ '9' then some (c.toNat - 48)
  else if 'A' ≤ c ∧ c ≤ 'F' then some (c.toNat - 55)
  else if 'a' ≤ c ∧ c ≤ 'f' then some (c.toNat - 87)
  else none

/-- `unquote_to_bytes` of ASCII characters -/
def unquoteToBytes : List Char → List UInt8
  | [] => []
  | '%' :: high :: low :: rest =>
      match hexValue? high, hexValue? low with
      | some h, some l => UInt8.ofNat (h * 16 + l) :: unquoteToBytes rest
      | _, _ => UInt8.ofNat '%'.toNat :: unquoteToBytes (high :: low :: rest)
  | c :: rest => UInt8.ofNat c.toNat :: unquoteToBytes rest

/-- Read on after some ASCII characters: what stands between characters that are not
ASCII is decoded by itself. -/
def unquoteFrom (run : List Char) : List Char → List Char
  | [] => Utf8.decode (unquoteToBytes run)
  | c :: rest =>
      if c.toNat < 128 then unquoteFrom (run ++ [c]) rest
      else Utf8.decode (unquoteToBytes run) ++ c :: unquoteFrom [] rest

/-- `unquote_plus` -/
def unquotePlus (text : List Char) : List Char :=
  unquoteFrom [] (text.map fun c => if c = '+' then ' ' else c)

def unquotePair (part : List Char) : List Char × List Char :=
  (unquotePlus (part.takeWhile (· ≠ '=')), unquotePlus ((part.dropWhile (· ≠ '=')).drop 1))

/-- `parse_qsl(query, keep_blank_values=True)` -/
def parseQsl (query : List Char) : List (List Char × List Char) :=
  ((query.splitOn '&').filter (· ≠ [])).map unquotePair

/-! ## What is written -/

/-- The characters of a part that was written. -/
def Plain (c : Char) : Prop := unreserved c = true ∨ c = '+' ∨ c = '%'

theorem hexDigit_spec : ∀ n < 16, unreserved (hexDigit n) = true ∧
    hexValue? (hexDigit n) = some n := by decide

theorem quoteByte_cases (b : UInt8) :
    (b = 32 ∧ quoteByte b = ['+']) ∨
    (∃ c, unreserved c = true ∧ UInt8.ofNat c.toNat = b ∧ quoteByte b = [c]) ∨
    quoteByte b = ['%', hexDigit (b.toNat / 16), hexDigit (b.toNat % 16)] := by
  unfold quoteByte
  split
  · next hspace => exact Or.inl ⟨hspace, rfl⟩
  split
  · next hspace hplain =>
    refine Or.inr (Or.inl ⟨Char.ofNat b.toNat, hplain, ?_, rfl⟩)
    have hvalid : b.toNat.isValidChar := Or.inl (by have := b.toNat_lt; omega)
    have hchar : (Char.ofNat b.toNat).toNat = b.toNat := by
      rw [Char.ofNat, dif_pos hvalid]
      rfl
    rw [hchar, UInt8.ofNat_toNat]
  · exact Or.inr (Or.inr rfl)

theorem plain_of_mem_quotePlus {c : Char} {text : List Char} (h : c ∈ quotePlus text) :
    Plain c := by
  obtain ⟨b, -, hc⟩ := List.mem_flatMap.mp h
  have hb := b.toNat_lt
  rcases quoteByte_cases b with ⟨-, hquote⟩ | ⟨d, hd, -, hquote⟩ | hquote
  · rw [hquote, List.mem_singleton] at hc
    exact Or.inr (Or.inl hc)
  · rw [hquote, List.mem_singleton] at hc
    exact Or.inl (hc ▸ hd)
  · simp only [hquote, List.mem_cons, List.not_mem_nil, or_false] at hc
    rcases hc with rfl | rfl | rfl
    · exact Or.inr (Or.inr rfl)
    · exact Or.inl (hexDigit_spec _ (by omega)).1
    · exact Or.inl (hexDigit_spec _ (by omega)).1

/-- Where plain characters stand among all characters. -/
theorem Plain.toNat {c : Char} (h : Plain c) : c.toNat = 37 ∨ c.toNat = 43 ∨
    (45 ≤ c.toNat ∧ c.toNat ≤ 46) ∨ (48 ≤ c.toNat ∧ c.toNat ≤ 57) ∨
    (65 ≤ c.toNat ∧ c.toNat ≤ 90) ∨ c.toNat = 95 ∨ (97 ≤ c.toNat ∧ c.toNat ≤ 122) ∨
    c.toNat = 126 := by
  rcases h with h | rfl | rfl
  · simp only [unreserved, Bool.or_eq_true, Ascii.isAlphanum_iff, beq_iff_eq] at h
    rcases h with (((hletter | rfl) | rfl) | rfl) | rfl
    · omega
    all_goals decide
  · exact Or.inr (Or.inl rfl)
  · exact Or.inl rfl

/-- A character below all others or reserved is not plain. -/
theorem Plain.ne {c d : Char} (h : Plain c)
    (hd : d.toNat ≤ 36 ∨ d.toNat = 38 ∨ d.toNat = 47 ∨ (58 ≤ d.toNat ∧ d.toNat ≤ 63)) : c ≠ d := by
  rintro rfl
  have hrange := h.toNat
  omega

/-! ## What was written is read -/

variable {rest : List Char}

theorem unquoteToBytes_cons {c : Char} (h : c ≠ '%') :
    unquoteToBytes (c :: rest) = UInt8.ofNat c.toNat :: unquoteToBytes rest := by
  rw [unquoteToBytes]
  intro high low rest' hc
  exact absurd hc h

theorem unquoteToBytes_escape {high low : Char} {h l : ℕ} (hh : hexValue? high = some h)
    (hl : hexValue? low = some l) :
    unquoteToBytes ('%' :: high :: low :: rest) =
      UInt8.ofNat (h * 16 + l) :: unquoteToBytes rest := by
  rw [unquoteToBytes, hh, hl]

/-- `+` for a space -/
def plusToSpace (c : Char) : Char := if c = '+' then ' ' else c

theorem plusToSpace_of_unreserved {c : Char} (h : unreserved c = true) : plusToSpace c = c := by
  have hne : c ≠ '+' := by
    rintro rfl
    cases h
  rw [plusToSpace, if_neg hne]

theorem unquoteToBytes_quoteByte (b : UInt8) :
    unquoteToBytes ((quoteByte b).map plusToSpace ++ rest) = b :: unquoteToBytes rest := by
  have hb := b.toNat_lt
  rcases quoteByte_cases b with ⟨rfl, hquote⟩ | ⟨c, hc, rfl, hquote⟩ | hquote
  · rw [hquote]
    exact unquoteToBytes_cons (by decide)
  · have hne : c ≠ '%' := by
      rintro rfl
      cases hc
    rw [hquote, List.map_singleton, plusToSpace_of_unreserved hc, List.singleton_append,
      unquoteToBytes_cons hne]
  · obtain ⟨hhigh, hhigh'⟩ := hexDigit_spec (b.toNat / 16) (by omega)
    obtain ⟨hlow, hlow'⟩ := hexDigit_spec (b.toNat % 16) (by omega)
    have hvalue : b.toNat / 16 * 16 + b.toNat % 16 = b.toNat := by omega
    have hpercent : plusToSpace '%' = '%' := by decide
    simp only [hquote, List.map_cons, List.map_nil, List.cons_append, List.nil_append, hpercent,
      plusToSpace_of_unreserved hhigh, plusToSpace_of_unreserved hlow]
    rw [unquoteToBytes_escape hhigh' hlow', hvalue, UInt8.ofNat_toNat]

theorem unquoteToBytes_quoted (bytes : List UInt8) :
    unquoteToBytes ((bytes.flatMap quoteByte).map plusToSpace) = bytes := by
  induction bytes with
  | nil => rfl
  | cons b bytes ih =>
      rw [List.flatMap_cons, List.map_append, unquoteToBytes_quoteByte, ih]

theorem unquoteFrom_ascii {run text : List Char} (h : ∀ c ∈ text, c.toNat < 128) :
    unquoteFrom run text = Utf8.decode (unquoteToBytes (run ++ text)) := by
  induction text generalizing run with
  | nil => rw [unquoteFrom, List.append_nil]
  | cons c text ih =>
      rw [unquoteFrom, if_pos (h c (List.mem_cons_self ..)),
        ih fun d hd => h d (List.mem_cons_of_mem _ hd), List.append_assoc, List.singleton_append]

theorem unquotePlus_quotePlus (text : List Char) : unquotePlus (quotePlus text) = text := by
  have hascii : ∀ c ∈ (quotePlus text).map plusToSpace, c.toNat < 128 := by
    intro c hc
    obtain ⟨d, hd, rfl⟩ := List.mem_map.mp hc
    have hrange := (plain_of_mem_quotePlus hd).toNat
    unfold plusToSpace
    split
    · decide
    · omega
  calc unquotePlus (quotePlus text)
      = Utf8.decode (unquoteToBytes ((quotePlus text).map plusToSpace)) := unquoteFrom_ascii hascii
    _ = Utf8.decode (Utf8.encode text) := by rw [quotePlus, unquoteToBytes_quoted]
    _ = text := Utf8.decode_encode text

theorem not_mem_quotePlus {text : List Char} {d : Char}
    (hd : d.toNat ≤ 36 ∨ d.toNat = 38 ∨ d.toNat = 47 ∨ (58 ≤ d.toNat ∧ d.toNat ≤ 63)) :
    d ∉ quotePlus text := fun hmem => (plain_of_mem_quotePlus hmem).ne hd rfl

theorem unquotePair_quotePair (pair : List Char × List Char) :
    unquotePair (quotePair pair) = pair := by
  have hname : ∀ c ∈ quotePlus pair.1, decide (c ≠ '=') = true := by
    intro c hc
    exact decide_eq_true (ne_of_mem_of_not_mem hc (not_mem_quotePlus (by decide)))
  rw [unquotePair, quotePair, List.takeWhile_append_of_pos hname,
    List.dropWhile_append_of_pos hname]
  simp [unquotePlus_quotePlus]

theorem mem_quotePair {pair : List Char × List Char} {c : Char} (h : c ∈ quotePair pair) :
    Plain c ∨ c = '=' := by
  rw [quotePair, List.mem_append, List.mem_cons] at h
  rcases h with hc | rfl | hc
  · exact Or.inl (plain_of_mem_quotePlus hc)
  · exact Or.inr rfl
  · exact Or.inl (plain_of_mem_quotePlus hc)

theorem mem_urlencode {pairs : List (List Char × List Char)} {c : Char}
    (h : c ∈ urlencode pairs) : Plain c ∨ c = '=' ∨ c = '&' := by
  induction pairs with
  | nil => cases h
  | cons pair others ih =>
      cases hothers : others with
      | nil =>
          rw [hothers, urlencode, List.map_singleton, List.intercalate_singleton] at h
          exact (mem_quotePair h).imp_right Or.inl
      | cons next rest =>
          rw [urlencode, hothers, List.map_cons, List.map_cons, List.intercalate_cons_cons,
            List.mem_append, List.mem_append, List.mem_singleton] at h
          rcases h with (hc | rfl) | hc
          · exact (mem_quotePair hc).imp_right Or.inl
          · exact Or.inr (Or.inr rfl)
          · exact ih (by rwa [urlencode, hothers, List.map_cons])

/-- Pairs that were written are read. -/
theorem parseQsl_urlencode (pairs : List (List Char × List Char)) :
    parseQsl (urlencode pairs) = pairs := by
  by_cases hpairs : pairs = []
  · subst hpairs
    rfl
  have hparts : ∀ part ∈ pairs.map quotePair, '&' ∉ part := by
    intro part hpart hmem
    obtain ⟨pair, -, rfl⟩ := List.mem_map.mp hpart
    rcases mem_quotePair hmem with hplain | heq
    · exact hplain.ne (d := '&') (by decide) rfl
    · cases heq
  have hnonempty : ∀ part ∈ pairs.map quotePair, decide (part ≠ []) = true := by
    intro part hpart
    obtain ⟨pair, -, rfl⟩ := List.mem_map.mp hpart
    simp [quotePair]
  rw [parseQsl, urlencode, List.splitOn_intercalate _ hparts (by simpa using hpairs),
    List.filter_eq_self.mpr hnonempty, List.map_map]
  exact (List.map_congr_left fun pair _ => unquotePair_quotePair pair).trans (List.map_id pairs)

end Encoding.Query
