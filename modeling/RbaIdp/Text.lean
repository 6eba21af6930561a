import Mathlib.Data.List.Lex
import Mathlib.Data.List.Sort
import Mathlib.Data.List.TakeWhile
import Mathlib.Data.String.Basic

/-!
# Text

The string operations of the source language that the services use: trimming,
splitting at a separator, replacing a character and sorting.  Case mapping and the
character classes of Unicode are parameters (`Library` in `Environment.lean`).
-/

namespace RbaIdp

/-- `str.isspace` of one character -/
def isSpace (c : Char) : Bool :=
  let n := c.toNat
  (9 ≤ n && n ≤ 13) || (28 ≤ n && n ≤ 32) || n == 0x85 || n == 0xA0 || n == 0x1680 ||
    (0x2000 ≤ n && n ≤ 0x200A) || n == 0x2028 || n == 0x2029 || n == 0x202F || n == 0x205F ||
    n == 0x3000

/-- `str.strip` -/
def strip (s : String) : String :=
  String.ofList ((s.toList.dropWhile isSpace).reverse.dropWhile isSpace).reverse

theorem strip_eq_self {s : String} (hfirst : ∀ c ∈ s.toList.head?, isSpace c = false)
    (hlast : ∀ c ∈ s.toList.getLast?, isSpace c = false) : strip s = s := by
  have hdrop : ∀ {cs : List Char}, (∀ c ∈ cs.head?, isSpace c = false) →
      cs.dropWhile isSpace = cs := by
    intro cs hcs
    cases cs with
    | nil => rfl
    | cons c rest => rw [List.dropWhile_cons_of_neg (by simp [hcs c rfl])]
  rw [strip, hdrop hfirst, hdrop (by simpa using hlast), List.reverse_reverse, String.ofList_toList]

/-- A stripped text neither begins nor ends with a space. -/
theorem strip_ends (s : String) : (∀ c ∈ (strip s).toList.head?, isSpace c = false) ∧
    ∀ c ∈ (strip s).toList.getLast?, isSpace c = false := by
  have hdrop : ∀ cs : List Char, ∀ c ∈ (cs.dropWhile isSpace).head?, isSpace c = false := by
    intro cs c hc
    have hhead := List.head?_dropWhile_not isSpace cs
    rw [Option.mem_def.mp hc] at hhead
    exact hhead
  rw [strip, String.toList_ofList]
  constructor
  · intro c hc
    rw [List.head?_reverse] at hc
    obtain ⟨front, hfront⟩ :=
      List.dropWhile_suffix (l := (s.toList.dropWhile isSpace).reverse) isSpace
    have hlast := congrArg List.getLast? hfront
    rw [List.getLast?_append, hc, Option.some_or, List.getLast?_reverse] at hlast
    exact hdrop _ c hlast.symm
  · intro c hc
    rw [List.getLast?_reverse] at hc
    exact hdrop _ c hc

/-- `str.partition` on one character: what stands before the first separator,
whether there is one, and what stands after it. -/
def partition (s : String) (sep : Char) : String × Bool × String :=
  let before := s.toList.takeWhile (· != sep)
  match s.toList.dropWhile (· != sep) with
  | [] => (s, false, "")
  | _ :: after => (String.ofList before, true, String.ofList after)

theorem partition_of_not_mem {sep : Char} {s : String} (h : sep ∉ s.toList) :
    partition s sep = (s, false, "") := by
  have hnone : s.toList.dropWhile (· != sep) = [] := by
    rw [List.dropWhile_eq_nil_iff]
    intro c hc
    rw [bne_iff_ne]
    rintro rfl
    exact h hc
  simp only [partition, hnone]

/-- What `partition` gives for the separator where it first stands. -/
theorem partition_of_mem {sep : Char} {before after : String} (h : sep ∉ before.toList) :
    partition (before ++ (String.singleton sep ++ after)) sep = (before, true, after) := by
  have hplain : ∀ c ∈ before.toList, (c != sep) = true := by
    intro c hc
    rw [bne_iff_ne]
    rintro rfl
    exact h hc
  have hchars : (before ++ (String.singleton sep ++ after)).toList =
      before.toList ++ sep :: after.toList := by simp
  simp [partition, hchars, List.dropWhile_append_of_pos hplain,
    List.takeWhile_append_of_pos hplain]

theorem partition_eq_true {sep : Char} {s before after : String}
    (h : partition s sep = (before, true, after)) :
    s = before ++ (String.singleton sep ++ after) ∧ sep ∉ before.toList := by
  by_cases hmem : sep ∈ s.toList
  · obtain ⟨front, back, hsplit, hfront⟩ := List.eq_append_cons_of_mem hmem
    have hs : s = String.ofList front ++ (String.singleton sep ++ String.ofList back) := by
      rw [← String.toList_inj, hsplit]
      simp
    rw [hs, partition_of_mem (by simpa using hfront)] at h
    cases h
    exact ⟨hs, by simpa using hfront⟩
  · rw [partition_of_not_mem hmem] at h
    cases h

/-- `str.rpartition` on one character: split at the last separator. -/
def rpartition (s : String) (sep : Char) : String × Bool × String :=
  let reversed := s.toList.reverse
  match reversed.dropWhile (· != sep) with
  | [] => ("", false, s)
  | _ :: before =>
      (String.ofList before.reverse, true,
        String.ofList (reversed.takeWhile (· != sep)).reverse)

/-- What `rpartition` gives for the separator where it last stands. -/
theorem rpartition_eq_true {sep : Char} {s before after : String} :
    rpartition s sep = (before, true, after) ↔
      s = before ++ (String.singleton sep ++ after) ∧ sep ∉ after.toList := by
  have hlast : ∀ {before after : String}, sep ∉ after.toList →
      rpartition (before ++ (String.singleton sep ++ after)) sep = (before, true, after) := by
    intro before after h
    have hplain : ∀ c ∈ after.toList.reverse, (c != sep) = true := by
      intro c hc
      rw [bne_iff_ne]
      rintro rfl
      exact h (List.mem_reverse.mp hc)
    simp [rpartition, List.dropWhile_append_of_pos hplain, List.takeWhile_append_of_pos hplain]
  constructor
  · intro h
    by_cases hmem : sep ∈ s.toList.reverse
    · obtain ⟨back, front, hsplit, hback⟩ := List.eq_append_cons_of_mem hmem
      have hafter : sep ∉ (String.ofList back.reverse).toList := by simpa using hback
      have hs : s = String.ofList front.reverse ++
          (String.singleton sep ++ String.ofList back.reverse) := by
        rw [← String.toList_inj, ← List.reverse_inj, hsplit]
        simp
      rw [hs, hlast hafter] at h
      cases h
      exact ⟨hs, hafter⟩
    · have hnone : s.toList.reverse.dropWhile (· != sep) = [] := by
        rw [List.dropWhile_eq_nil_iff]
        intro c hc
        rw [bne_iff_ne]
        exact ne_of_mem_of_not_mem hc hmem
      simp [rpartition, hnone] at h
  · rintro ⟨rfl, hafter⟩
    exact hlast hafter

/-- Split a list at every element equal to `sep`, keeping empty parts. -/
def splitList (sep : Char) : List Char → List (List Char)
  | [] => [[]]
  | c :: rest =>
      if c = sep then [] :: splitList sep rest
      else
        match splitList sep rest with
        | [] => [[c]]
        | part :: parts => (c :: part) :: parts

/-- `str.split` on one character -/
def split (s : String) (sep : Char) : List String := (splitList sep s.toList).map String.ofList

theorem splitList_eq_splitOn (sep : Char) (cs : List Char) : splitList sep cs = cs.splitOn sep := by
  induction cs with
  | nil => rfl
  | cons c rest ih =>
      rw [splitList, List.splitOn_cons_eq_if_modifyHead, ih]
      by_cases hc : c = sep
      · simp [hc]
      · obtain ⟨part, parts, hparts⟩ := List.exists_cons_of_ne_nil (List.splitOn_ne_nil sep rest)
        rw [if_neg hc, if_neg (by simpa using hc), hparts]
        rfl

/-- Splitting goes piece by piece over what the separator joins. -/
theorem split_append {a b s : String} {sep : Char} (h : s.toList = a.toList ++ sep :: b.toList) :
    split s sep = split a sep ++ split b sep := by
  simp only [split, splitList_eq_splitOn, h, List.splitOn_append_cons_self, List.map_append]

/-- The pieces determine the text. -/
theorem split_injective (sep : Char) : Function.Injective fun s => split s sep := by
  intro a b hsplit
  have hinjective : Function.Injective String.ofList := fun _ _ => String.ofList_injective
  have hpieces : a.toList.splitOn sep = b.toList.splitOn sep := by
    simpa only [split, splitList_eq_splitOn] using hinjective.list_map hsplit
  have hjoined := congrArg ([sep].intercalate) hpieces
  rw [List.intercalate_splitOn, List.intercalate_splitOn] at hjoined
  exact String.toList_injective hjoined

/-- Splitting takes apart what was joined. -/
theorem split_intercalate {sep : Char} {parts : List String} (hne : parts ≠ [])
    (hsep : ∀ part ∈ parts, sep ∉ part.toList) :
    split ((String.singleton sep).intercalate parts) sep = parts := by
  rw [split, splitList_eq_splitOn, String.toList_intercalate, String.toList_singleton,
    List.splitOn_intercalate]
  · simp
  · simpa using hsep
  · simpa using hne

/-- Joining puts together what was taken apart. -/
theorem intercalate_split (s : String) (sep : Char) :
    (String.singleton sep).intercalate (split s sep) = s := by
  rw [← String.toList_inj, String.toList_intercalate, String.toList_singleton, split,
    splitList_eq_splitOn, List.map_map]
  have hchars : String.toList ∘ String.ofList = id := by
    funext cs
    simp
  rw [hchars, List.map_id, List.intercalate_splitOn]

theorem split_of_not_mem {sep : Char} {s : String} (h : sep ∉ s.toList) : split s sep = [s] := by
  have hjoin := @split_intercalate sep [s] (by simp) (by simpa using h)
  rwa [String.intercalate_singleton] at hjoin

theorem not_mem_of_mem_splitOn {sep : Char} {cs : List Char} :
    ∀ piece ∈ cs.splitOn sep, sep ∉ piece := by
  induction cs with
  | nil => simp
  | cons c rest ih =>
      rw [List.splitOn_cons_eq_if_modifyHead]
      obtain ⟨first, others, hpieces⟩ := List.exists_cons_of_ne_nil (List.splitOn_ne_nil sep rest)
      rw [hpieces] at ih ⊢
      by_cases hc : c = sep
      · simpa [hc] using ih
      · have hne : sep ≠ c := fun h => hc h.symm
        simpa [hc, hne] using ih

/-- A piece does not have what it was split at. -/
theorem not_mem_of_mem_split {sep : Char} {s piece : String} (h : piece ∈ split s sep) :
    sep ∉ piece.toList := by
  rw [split, splitList_eq_splitOn] at h
  obtain ⟨cs, hcs, rfl⟩ := List.mem_map.mp h
  rw [String.toList_ofList]
  exact not_mem_of_mem_splitOn cs hcs

theorem mem_intercalate {sep c : Char} {parts : List (List Char)}
    (h : c ∈ [sep].intercalate parts) : c = sep ∨ ∃ part ∈ parts, c ∈ part := by
  induction parts with
  | nil => simp at h
  | cons part rest ih =>
      by_cases hrest : rest = []
      · rw [hrest, List.intercalate_singleton] at h
        exact Or.inr ⟨part, List.mem_cons_self .., h⟩
      · rw [List.intercalate_cons_of_ne_nil hrest, List.append_assoc] at h
        rcases List.mem_append.mp h with h | h
        · exact Or.inr ⟨part, List.mem_cons_self .., h⟩
        · rcases List.mem_cons.mp h with h | h
          · exact Or.inl h
          · rcases ih h with h | ⟨other, hother, h⟩
            · exact Or.inl h
            · exact Or.inr ⟨other, List.mem_cons_of_mem _ hother, h⟩

/-- A text has no other characters than its pieces and what separates them. -/
theorem mem_split {s : String} {sep c : Char} (h : c ∈ s.toList) :
    c = sep ∨ ∃ part ∈ split s sep, c ∈ part.toList := by
  have hjoined : [sep].intercalate (s.toList.splitOn sep) = s.toList :=
    List.intercalate_splitOn sep
  rw [← hjoined] at h
  rcases mem_intercalate h with h | ⟨part, hpart, h⟩
  · exact Or.inl h
  · refine Or.inr ⟨String.ofList part, ?_, by rwa [String.toList_ofList]⟩
    rw [split, splitList_eq_splitOn]
    exact List.mem_map_of_mem hpart

/-- `s.replace("-", "_")` -/
def hyphensToUnderscores (s : String) : String :=
  String.ofList (s.toList.map fun c => if c = '-' then '_' else c)

/-- Replacing goes character by character, so a common beginning decides nothing. -/
theorem hyphensToUnderscores_append_inj {start a b : String} :
    hyphensToUnderscores (start ++ a) = hyphensToUnderscores (start ++ b) ↔
      hyphensToUnderscores a = hyphensToUnderscores b := by
  simp [hyphensToUnderscores]

/-- Sort by a key, as `ORDER BY` and `sorted` do: texts by code point, and equal
keys in the order they came. -/
def sortOn {α : Type} (key : α → List String) (xs : List α) : List α :=
  xs.insertionSort fun a b => key a ≤ key b

theorem perm_sortOn {α : Type} (key : α → List String) (xs : List α) : (sortOn key xs).Perm xs :=
  List.perm_insertionSort _ xs

theorem pairwise_sortOn {α : Type} (key : α → List String) (xs : List α) :
    (sortOn key xs).Pairwise fun a b => key a ≤ key b := by
  have : Std.Total fun a b : α => key a ≤ key b := ⟨fun a b => le_total (key a) (key b)⟩
  have : IsTrans α fun a b => key a ≤ key b := ⟨fun _ _ _ => le_trans⟩
  exact List.pairwise_insertionSort _ xs

/-- Where the keys tell the elements apart, sorting forgets the order they came in. -/
theorem sortOn_eq_of_perm {α : Type} {key : α → List String} {xs ys : List α} (hperm : xs.Perm ys)
    (hkey : ∀ a ∈ xs, ∀ b ∈ xs, key a = key b → a = b) : sortOn key xs = sortOn key ys := by
  have hsame : (sortOn key xs).Perm (sortOn key ys) :=
    ((perm_sortOn key xs).trans hperm).trans (perm_sortOn key ys).symm
  refine hsame.eq_of_pairwise (fun a b ha hb hab hba => hkey a ?_ b ?_ (le_antisymm hab hba))
    (pairwise_sortOn key xs) (pairwise_sortOn key ys)
  · exact (perm_sortOn key xs).subset ha
  · exact hperm.symm.subset ((perm_sortOn key ys).subset hb)

/-- A text that is not empty: what `x or default` keeps of `x`. -/
def nonEmpty (s : Option String) : Option String := s.filter fun text => text != ""

end RbaIdp
