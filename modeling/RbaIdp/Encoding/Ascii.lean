import Mathlib.Data.String.Basic

/-!
# The classes of ASCII characters

Where the digits and the letters stand, as bounds on the number of a character, and what
capitalising does to that number.
-/

namespace Encoding.Ascii

variable {c : Char}

theorem isDigit_iff : c.isDigit = true ↔ 48 ≤ c.toNat ∧ c.toNat ≤ 57 := by
  show (decide ('0'.val ≤ c.val) && decide (c.val ≤ '9'.val)) = true ↔ _
  rw [Bool.and_eq_true, decide_eq_true_eq, decide_eq_true_eq]
  rfl

theorem isUpper_iff : c.isUpper = true ↔ 65 ≤ c.toNat ∧ c.toNat ≤ 90 := by
  show decide ('A'.val ≤ c.val ∧ c.val ≤ 'Z'.val) = true ↔ _
  rw [decide_eq_true_eq]
  rfl

theorem isLower_iff : c.isLower = true ↔ 97 ≤ c.toNat ∧ c.toNat ≤ 122 := by
  show (decide ('a'.val ≤ c.val) && decide (c.val ≤ 'z'.val)) = true ↔ _
  rw [Bool.and_eq_true, decide_eq_true_eq, decide_eq_true_eq]
  rfl

theorem isAlpha_iff : c.isAlpha = true ↔
    (65 ≤ c.toNat ∧ c.toNat ≤ 90) ∨ 97 ≤ c.toNat ∧ c.toNat ≤ 122 := by
  show (c.isUpper || c.isLower) = true ↔ _
  rw [Bool.or_eq_true, isUpper_iff, isLower_iff]

theorem isAlphanum_iff : c.isAlphanum = true ↔
    ((65 ≤ c.toNat ∧ c.toNat ≤ 90) ∨ 97 ≤ c.toNat ∧ c.toNat ≤ 122) ∨
      48 ≤ c.toNat ∧ c.toNat ≤ 57 := by
  show (c.isAlpha || c.isDigit) = true ↔ _
  rw [Bool.or_eq_true, isAlpha_iff, isDigit_iff]

/-! ## Capitals -/

theorem toUpper_of_not_lower (h : ¬ (97 ≤ c.toNat ∧ c.toNat ≤ 122)) : c.toUpper = c :=
  dif_neg h

theorem toNat_toUpper (h : 97 ≤ c.toNat ∧ c.toNat ≤ 122) :
    c.toUpper.toNat = c.toNat - 32 := by
  have hlower : 'a'.val ≤ c.val ∧ c.val ≤ 'z'.val := h
  have hupper : c.toUpper.val = c.val + ('A'.val - 'a'.val) := by
    show Char.val (dite _ _ _) = _
    rw [dif_pos hlower]
  -- the distance between the two alphabets, as a word that wraps around
  have hshift : ('A'.val - 'a'.val).toNat = 4294967264 := by decide
  calc c.toUpper.toNat
    _ = (c.val + ('A'.val - 'a'.val)).toNat := by rw [← hupper, Char.toNat_val]
    _ = (c.toNat + 4294967264) % 2 ^ 32 := by rw [UInt32.toNat_add, hshift, Char.toNat_val]
    _ = c.toNat - 32 := by omega

theorem toUpper_toUpper (c : Char) : c.toUpper.toUpper = c.toUpper := by
  by_cases h : 97 ≤ c.toNat ∧ c.toNat ≤ 122
  · refine toUpper_of_not_lower ?_
    rw [toNat_toUpper h]
    omega
  · rw [toUpper_of_not_lower h, toUpper_of_not_lower h]

end Encoding.Ascii
