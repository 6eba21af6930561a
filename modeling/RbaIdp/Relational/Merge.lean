import Mathlib.Data.List.Nodup
import Mathlib.Data.List.Perm.Basic
import Mathlib.Order.Bounds.Basic
import Mathlib.Order.MinMax

/-!
# Merging counters

A store keeps a value and a counter under each key.  Merging an entry adds it when its key
is new, and otherwise keeps the value that is there and the higher of the two counters.

What is there in the end is said by `isSome_mergeAll`, `mergeAll_kept`, `mergeAll_new` and
`mergeAll_greatest`.  When entries of one key have one value, the order of merging is of no
account (`mergeAll_perm`); merging a second time changes nothing (`mergeAll_again`).
-/

namespace Relational

/-- A value and a counter for a key. -/
structure Entry (κ α ν : Type*) where
  key : κ
  value : α
  count : ν

variable {κ α ν : Type*} [DecidableEq κ] [LinearOrder ν]

/-- The store with an entry merged into it. -/
def merge (m : κ → Option (α × ν)) (e : Entry κ α ν) : κ → Option (α × ν) :=
  Function.update m e.key
    (match m e.key with
    | none => some (e.value, e.count)
    | some (a, n) => some (a, max n e.count))

/-- The store with a list of entries merged into it, the first one first. -/
def mergeAll (m : κ → Option (α × ν)) (es : List (Entry κ α ν)) : κ → Option (α × ν) :=
  es.foldl merge m

omit [DecidableEq κ] [LinearOrder ν] in
/-- Entries of one key have one value. -/
def OneValue (es : List (Entry κ α ν)) : Prop :=
  ∀ e ∈ es, ∀ f ∈ es, e.key = f.key → e.value = f.value

variable {m : κ → Option (α × ν)} {e f : Entry κ α ν} {es es' : List (Entry κ α ν)} {k : κ} {a : α}
  {n : ν}

/-! ## One entry -/

theorem merge_new (h : m e.key = none) :
    merge m e = Function.update m e.key (some (e.value, e.count)) := by
  rw [merge, h]

theorem merge_old (h : m e.key = some (a, n)) :
    merge m e = Function.update m e.key (some (a, max n e.count)) := by
  rw [merge, h]

theorem merge_other (h : k ≠ e.key) : merge m e k = m k := Function.update_of_ne h ..

/-- A counter that is not higher changes nothing. -/
theorem merge_of_le (h : m e.key = some (a, n)) (hle : e.count ≤ n) : merge m e = m := by
  rw [merge_old h, max_eq_left hle, ← h, Function.update_eq_self]

theorem merge_comm (h : e.key = f.key → e.value = f.value) :
    merge (merge m e) f = merge (merge m f) e := by
  by_cases hkey : e.key = f.key
  · have hvalue := h hkey
    cases hold : m e.key with
    | none =>
        have hold' : m f.key = none := hkey ▸ hold
        rw [merge_new hold, merge_new hold', merge, merge]
        simp [hkey, hvalue, max_comm]
    | some old =>
        obtain ⟨a, n⟩ := old
        have hold' : m f.key = some (a, n) := hkey ▸ hold
        rw [merge_old hold, merge_old hold', merge, merge]
        simp [hkey, max_assoc, max_comm e.count f.count]
  · -- each entry finds under its key what was there before the other
    have he : merge m f e.key = m e.key := merge_other hkey
    have hf : merge m e f.key = m f.key := merge_other (Ne.symm hkey)
    rw [merge, hf, merge, merge, he, merge]
    exact Function.update_comm hkey ..

/-! ## Lists of entries -/

@[simp] theorem mergeAll_nil : mergeAll m [] = m := rfl

@[simp] theorem mergeAll_cons : mergeAll m (e :: es) = mergeAll (merge m e) es := rfl

theorem mergeAll_append : mergeAll m (es ++ es') = mergeAll (mergeAll m es) es' :=
  List.foldl_append

/-- The order of the entries is of no account. -/
theorem mergeAll_perm (h : OneValue es) (hperm : es.Perm es') : mergeAll m es = mergeAll m es' :=
  hperm.foldl_eq' (fun e he f hf _ => merge_comm (h e he f hf)) m

omit [DecidableEq κ] [LinearOrder ν] in
theorem OneValue.tail (h : OneValue (e :: es)) : OneValue es := fun f hf g hg =>
  h f (List.mem_cons_of_mem _ hf) g (List.mem_cons_of_mem _ hg)

theorem isSome_merge : (merge m e k).isSome ↔ (m k).isSome ∨ e.key = k := by
  by_cases hk : k = e.key
  · subst hk
    cases hold : m e.key with
    | none => simp [merge_new hold]
    | some old => simp [merge_old hold]
  · simp [merge_other hk, Ne.symm hk]

/-- The keys are the old ones and those of the entries. -/
theorem isSome_mergeAll :
    (mergeAll m es k).isSome ↔ (m k).isSome ∨ ∃ e ∈ es, e.key = k := by
  induction es generalizing m with
  | nil => simp
  | cons e es ih =>
      rw [mergeAll_cons, ih, isSome_merge, List.exists_mem_cons_iff, or_assoc]

/-- A value that is there stays, and its counter does not go down. -/
theorem mergeAll_kept (es : List (Entry κ α ν)) (h : m k = some (a, n)) :
    ∃ n', mergeAll m es k = some (a, n') ∧ n ≤ n' := by
  induction es generalizing m n with
  | nil => exact ⟨n, h, le_rfl⟩
  | cons e es ih =>
      by_cases hk : k = e.key
      · subst hk
        obtain ⟨n', hafter, hle⟩ := ih (m := merge m e) (n := max n e.count) (by simp [merge_old h])
        exact ⟨n', hafter, (le_max_left ..).trans hle⟩
      · exact ih ((merge_other hk).trans h)

/-- The value of a new key is that of an entry. -/
theorem mergeAll_new (hnew : m k = none) (h : mergeAll m es k = some (a, n)) :
    ∃ e ∈ es, e.key = k ∧ e.value = a := by
  induction es generalizing m with
  | nil =>
      rw [mergeAll_nil, hnew] at h
      cases h
  | cons e es ih =>
      by_cases hk : k = e.key
      · subst hk
        have hfirst : merge m e e.key = some (e.value, e.count) := by simp [merge_new hnew]
        obtain ⟨n', hkept, -⟩ := mergeAll_kept es hfirst
        rw [mergeAll_cons, hkept] at h
        cases h
        exact ⟨e, List.mem_cons_self .., rfl, rfl⟩
      · obtain ⟨f, hf, hrest⟩ := ih ((merge_other hk).trans hnew) h
        exact ⟨f, List.mem_cons_of_mem _ hf, hrest⟩

/-- The counters that speak of a key: the one that is there and those of the entries. -/
def counts (m : κ → Option (α × ν)) (es : List (Entry κ α ν)) (k : κ) : Set ν :=
  {n | (∃ a, m k = some (a, n)) ∨ ∃ e ∈ es, e.key = k ∧ e.count = n}

theorem merge_greatest (h : merge m e k = some (a, n)) : IsGreatest (counts m [e] k) n := by
  by_cases hk : k = e.key
  · subst hk
    cases hold : m e.key with
    | none =>
        rw [merge_new hold, Function.update_self] at h
        cases h
        refine ⟨Or.inr ⟨e, List.mem_singleton_self e, rfl, rfl⟩, ?_⟩
        rintro n' (⟨b, hb⟩ | ⟨f, hf, -, rfl⟩)
        · rw [hold] at hb
          cases hb
        · rw [List.mem_singleton.mp hf]
    | some old =>
        obtain ⟨b, n₀⟩ := old
        rw [merge_old hold, Function.update_self] at h
        cases h
        refine ⟨?_, ?_⟩
        · rcases max_choice n₀ e.count with hmax | hmax
          · exact Or.inl ⟨a, by rw [hold, hmax]⟩
          · exact Or.inr ⟨e, List.mem_singleton_self e, rfl, hmax.symm⟩
        · rintro n' (⟨b', hb'⟩ | ⟨f, hf, -, rfl⟩)
          · rw [hold] at hb'
            cases hb'
            exact le_max_left ..
          · rw [List.mem_singleton.mp hf]
            exact le_max_right ..
  · rw [merge_other hk] at h
    refine ⟨Or.inl ⟨a, h⟩, ?_⟩
    rintro n' (⟨b, hb⟩ | ⟨f, hf, hkey, -⟩)
    · rw [h] at hb
      cases hb
      exact le_rfl
    · rw [List.mem_singleton.mp hf] at hkey
      exact absurd hkey.symm hk

/-- A counter that is there in the end is the highest that speaks of its key. -/
theorem mergeAll_greatest (h : mergeAll m es k = some (a, n)) : IsGreatest (counts m es k) n := by
  induction es generalizing m with
  | nil =>
      refine ⟨Or.inl ⟨a, h⟩, ?_⟩
      rintro n' (⟨b, hb⟩ | ⟨e, he, -⟩)
      · have hsame : some (b, n') = some (a, n) := hb.symm.trans h
        cases hsame
        exact le_rfl
      · cases he
  | cons e es ih =>
      obtain ⟨hmem, hupper⟩ := ih h
      -- what speaks before the first entry, or in it, is not above what is there after it
      have hfirst : ∀ n' ∈ counts m [e] k, n' ≤ n := by
        intro n' hn'
        have hthere : (merge m e k).isSome := by
          rw [isSome_merge]
          rcases hn' with ⟨b, hb⟩ | ⟨f, hf, hkey, -⟩
          · exact Or.inl (by rw [hb]; rfl)
          · rw [List.mem_singleton.mp hf] at hkey
            exact Or.inr hkey
        obtain ⟨⟨b, n₁⟩, hmid⟩ := Option.isSome_iff_exists.mp hthere
        exact ((merge_greatest hmid).2 hn').trans (hupper (Or.inl ⟨b, hmid⟩))
      refine ⟨?_, ?_⟩
      · rcases hmem with ⟨b, hb⟩ | ⟨f, hf, hrest⟩
        · rcases (merge_greatest hb).1 with hold | ⟨f, hf, hrest⟩
          · exact Or.inl hold
          · rw [List.mem_singleton.mp hf] at hrest
            exact Or.inr ⟨e, List.mem_cons_self .., hrest⟩
        · exact Or.inr ⟨f, List.mem_cons_of_mem _ hf, hrest⟩
      · rintro n' (hold | ⟨f, hf, hrest⟩)
        · exact hfirst n' (Or.inl hold)
        · rcases List.mem_cons.mp hf with rfl | hf
          · exact hfirst n' (Or.inr ⟨f, List.mem_singleton_self f, hrest⟩)
          · exact hupper (Or.inr ⟨f, hf, hrest⟩)

/-- Entries whose counters are there already change nothing. -/
theorem mergeAll_of_le (h : ∀ e ∈ es, ∃ a n, m e.key = some (a, n) ∧ e.count ≤ n) :
    mergeAll m es = m := by
  induction es with
  | nil => rfl
  | cons e es ih =>
      obtain ⟨a, n, hold, hle⟩ := h e (List.mem_cons_self ..)
      rw [mergeAll_cons, merge_of_le hold hle]
      exact ih fun f hf => h f (List.mem_cons_of_mem _ hf)

/-- Merging twice is merging once. -/
theorem mergeAll_again : mergeAll (mergeAll m es) es = mergeAll m es := by
  refine mergeAll_of_le fun e he => ?_
  have hthere : (mergeAll m es e.key).isSome := isSome_mergeAll.mpr (Or.inr ⟨e, he, rfl⟩)
  obtain ⟨⟨a, n⟩, hafter⟩ := Option.isSome_iff_exists.mp hthere
  exact ⟨a, n, hafter, (mergeAll_greatest hafter).2 (Or.inr ⟨e, he, rfl, rfl⟩)⟩

/-- Entries of different keys come back out of an empty store as they are. -/
theorem mergeAll_empty (h : (es.map Entry.key).Nodup) :
    mergeAll (fun _ => none) es k = some (a, n) ↔ ⟨k, a, n⟩ ∈ es := by
  have hunique : ∀ e ∈ es, ∀ f ∈ es, e.key = f.key → e = f := fun e he f hf =>
    List.inj_on_of_nodup_map h he hf
  have hthere : ∀ {a n}, mergeAll (fun _ => none) es k = some (a, n) → ⟨k, a, n⟩ ∈ es := by
    intro a n hafter
    obtain ⟨e, he, hkey, hvalue⟩ := mergeAll_new rfl hafter
    obtain ⟨⟨b, hb⟩ | ⟨f, hf, hkey', hcount⟩, -⟩ := mergeAll_greatest hafter
    · cases hb
    · obtain rfl := hunique e he f hf (hkey.trans hkey'.symm)
      rw [← hkey, ← hvalue, ← hcount]
      exact he
  refine ⟨hthere, fun hmem => ?_⟩
  have hsome : (mergeAll (fun _ => none) es k).isSome :=
    isSome_mergeAll.mpr (Or.inr ⟨_, hmem, rfl⟩)
  obtain ⟨⟨b, n'⟩, hafter⟩ := Option.isSome_iff_exists.mp hsome
  cases hunique _ hmem _ (hthere hafter) rfl
  exact hafter

end Relational
