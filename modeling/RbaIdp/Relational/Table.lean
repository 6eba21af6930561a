import Mathlib.Data.List.Nodup
import Mathlib.Data.List.Lookmap

/-!
# Tables with a primary key

A `Table ρ key` is a list of rows whose keys are pairwise distinct.  The
distinctness is a field, so a table with two rows under one key cannot be
built, and every operation below has to say why it keeps it.

Reading goes through `get`, which finds the row of a key.  The three ways a
statement changes a table are `insert`, `modify` (an update of the rows that
satisfy a condition, keeping their keys) and `erase` (a delete of the rows that
satisfy a condition).  Each has one lemma that says what `get` returns
afterwards and one that says which rows are in the table afterwards; the
developments that use tables never unfold the operations.
-/

namespace Relational

/-- A list of rows with pairwise distinct keys, in insertion order. -/
structure Table (ρ : Type*) {κ : Type*} (key : ρ → κ) where
  rows : List ρ
  nodup : (rows.map key).Nodup

namespace Table

variable {ρ κ : Type*} {key : ρ → κ}

instance : Membership ρ (Table ρ key) := ⟨fun t r => r ∈ t.rows⟩

/-- The table with no rows. -/
def empty : Table ρ key := ⟨[], by simp⟩

/-- The rows that satisfy a condition, in insertion order. -/
def select (t : Table ρ key) (p : ρ → Bool) : List ρ := t.rows.filter p

/-- Does some row satisfy the condition? -/
def exists? (t : Table ρ key) (p : ρ → Bool) : Bool := t.rows.any p

/-- The first row that satisfies a condition. -/
def first? (t : Table ρ key) (p : ρ → Bool) : Option ρ := t.rows.find? p

/-- Delete the rows that satisfy a condition. -/
def erase (t : Table ρ key) (p : ρ → Bool) : Table ρ key :=
  ⟨t.rows.filter fun r => !p r, t.nodup.sublist (List.filter_sublist.map key)⟩

/-- Update the rows that satisfy a condition; the update keeps their keys. -/
def modify (t : Table ρ key) (p : ρ → Bool) (f : ρ → ρ) (hkey : ∀ r, key (f r) = key r) :
    Table ρ key :=
  ⟨t.rows.map fun r => if p r then f r else r, by
    have hkeys : (t.rows.map fun r => if p r then f r else r).map key = t.rows.map key := by
      rw [List.map_map]
      refine List.map_congr_left fun r _ => ?_
      by_cases hp : p r <;> simp [hp, hkey]
    rw [hkeys]
    exact t.nodup⟩

@[simp] theorem mem_rows {t : Table ρ key} {r : ρ} : r ∈ t.rows ↔ r ∈ t := Iff.rfl

@[simp] theorem not_mem_empty (r : ρ) : r ∉ (empty : Table ρ key) := by
  simp [← mem_rows, empty]

@[simp] theorem mem_select {t : Table ρ key} {p : ρ → Bool} {r : ρ} :
    r ∈ t.select p ↔ r ∈ t ∧ p r = true := by
  simp [select]

@[simp] theorem exists?_eq_true {t : Table ρ key} {p : ρ → Bool} :
    t.exists? p = true ↔ ∃ r ∈ t, p r = true := by
  simp [exists?]

theorem exists?_eq_false {t : Table ρ key} {p : ρ → Bool} :
    t.exists? p = false ↔ ∀ r ∈ t, p r = false := by
  simp [exists?]

theorem first?_eq_some {t : Table ρ key} {p : ρ → Bool} {r : ρ} (h : t.first? p = some r) :
    r ∈ t ∧ p r = true :=
  ⟨List.mem_of_find?_eq_some h, List.find?_some h⟩

@[simp] theorem mem_erase {t : Table ρ key} {p : ρ → Bool} {r : ρ} :
    r ∈ t.erase p ↔ r ∈ t ∧ p r = false := by
  simp [← mem_rows, erase]

@[simp] theorem mem_modify {t : Table ρ key} {p : ρ → Bool} {f : ρ → ρ}
    {hkey : ∀ r, key (f r) = key r} {r : ρ} :
    r ∈ t.modify p f hkey ↔ ∃ s ∈ t, (if p s then f s else s) = r := by
  simp [← mem_rows, modify]

/-- An update that finds its rows as it would leave them. -/
theorem modify_eq_self {t : Table ρ key} {p : ρ → Bool} {f : ρ → ρ}
    {hkey : ∀ r, key (f r) = key r} (h : ∀ r ∈ t, p r = true → f r = r) :
    t.modify p f hkey = t := by
  have hrows : (t.rows.map fun r => if p r then f r else r) = t.rows := by
    refine (List.map_congr_left fun r hr => ?_).trans (List.map_id _)
    by_cases hp : p r
    · simp [hp, h r hr hp]
    · simp [hp]
  obtain ⟨rows, nodup⟩ := t
  simp only [modify, hrows]

/-- Deleting no row changes nothing. -/
theorem erase_eq_self {t : Table ρ key} {p : ρ → Bool} (h : ∀ r ∈ t, p r = false) :
    t.erase p = t := by
  unfold erase
  congr 1
  exact List.filter_eq_self.mpr fun r hr => by simp [h r hr]

/-- A row that an update neither takes nor leaves is not concerned by it. -/
theorem mem_modify_of_ne {t : Table ρ key} {p : ρ → Bool} {f : ρ → ρ}
    {hkey : ∀ r, key (f r) = key r} {r : ρ} (hne : ∀ s ∈ t, p s = true → s ≠ r ∧ f s ≠ r) :
    r ∈ t.modify p f hkey ↔ r ∈ t := by
  rw [mem_modify]
  constructor
  · rintro ⟨s, hs, rfl⟩
    split
    · next hp => simp only [hp, if_true] at hne; exact absurd rfl (hne s hs hp).2
    · exact hs
  · intro hr
    have hp : p r = false := Bool.eq_false_iff.mpr fun hp => (hne r hr hp).1 rfl
    exact ⟨r, hr, by simp [hp]⟩

/-- The selected rows of an updated table are the updated rows of the selection, when
the update does not change what is selected. -/
theorem select_modify {t : Table ρ key} {p q : ρ → Bool} {f : ρ → ρ}
    (hkey : ∀ r, key (f r) = key r) (hp : ∀ r, p (f r) = p r) :
    (t.modify q f hkey).select p = (t.select p).map fun r => if q r then f r else r := by
  have hsame : (p ∘ fun r => if q r then f r else r) = p := by
    funext r
    simp only [Function.comp_apply]
    split
    · exact hp r
    · rfl
  rw [select, select, modify, List.filter_map, hsame]

/-- Two rows of a table with the same key are the same row. -/
theorem eq_of_key_eq {t : Table ρ key} {r s : ρ} (hr : r ∈ t) (hs : s ∈ t)
    (hkey : key r = key s) : r = s :=
  List.inj_on_of_nodup_map t.nodup hr hs hkey

variable [DecidableEq κ]

/-- The row stored under a key. -/
def get (t : Table ρ key) (k : κ) : Option ρ := t.rows.find? fun r => decide (key r = k)

/-- Add a row.  Its key must be free: a taken key leaves the table as it is. -/
def insert (t : Table ρ key) (r : ρ) : Table ρ key :=
  if h : key r ∈ t.rows.map key then t
  else ⟨t.rows ++ [r], by
    rw [List.map_append, List.map_singleton]
    exact t.nodup.append (List.nodup_singleton _) (by simpa using h)⟩

theorem get_eq_some {t : Table ρ key} {k : κ} {r : ρ} :
    t.get k = some r ↔ r ∈ t ∧ key r = k := by
  constructor
  · intro h
    exact ⟨List.mem_of_find?_eq_some h, by simpa using List.find?_some h⟩
  · rintro ⟨hmem, rfl⟩
    cases hfound : t.get (key r) with
    | none =>
        have hnone := List.find?_eq_none.mp hfound r hmem
        simp at hnone
    | some s =>
        have hs : s ∈ t := List.mem_of_find?_eq_some hfound
        have hkey : key s = key r := by simpa using List.find?_some hfound
        rw [eq_of_key_eq hs hmem hkey]

theorem get_eq_none {t : Table ρ key} {k : κ} :
    t.get k = none ↔ ∀ r ∈ t, key r ≠ k := by
  simp [get]

theorem mem_of_get {t : Table ρ key} {k : κ} {r : ρ} (h : t.get k = some r) : r ∈ t :=
  (get_eq_some.mp h).1

theorem key_of_get {t : Table ρ key} {k : κ} {r : ρ} (h : t.get k = some r) : key r = k :=
  (get_eq_some.mp h).2

theorem get_of_mem {t : Table ρ key} {r : ρ} (h : r ∈ t) : t.get (key r) = some r :=
  get_eq_some.mpr ⟨h, rfl⟩

theorem mem_iff_get {t : Table ρ key} {r : ρ} : r ∈ t ↔ t.get (key r) = some r := by
  simp [get_eq_some]

@[simp] theorem get_empty (k : κ) : (empty : Table ρ key).get k = none := rfl

@[simp] theorem get_insert (t : Table ρ key) (r : ρ) (k : κ) :
    (t.insert r).get k = (t.get k).or (if key r = k then some r else none) := by
  unfold insert
  split
  · next htaken =>
    obtain ⟨s, hs, hkey⟩ := List.mem_map.mp htaken
    by_cases hk : key r = k
    · have hfound : t.get k = some s := get_eq_some.mpr ⟨hs, hkey.trans hk⟩
      simp [hfound]
    · simp [hk]
  · by_cases hk : key r = k <;> simp [get, hk]

@[simp] theorem get_modify (t : Table ρ key) (p : ρ → Bool) (f : ρ → ρ)
    (hkey : ∀ r, key (f r) = key r) (k : κ) :
    (t.modify p f hkey).get k = (t.get k).map fun r => if p r then f r else r := by
  have hsame : ∀ r, key (if p r then f r else r) = key r := by
    intro r
    by_cases hp : p r <;> simp [hp, hkey]
  cases hfound : t.get k with
  | none =>
      simp only [Option.map_none, get_eq_none, mem_modify]
      rintro r ⟨s, hs, rfl⟩
      rw [hsame]
      exact get_eq_none.mp hfound s hs
  | some r =>
      obtain ⟨hmem, hk⟩ := get_eq_some.mp hfound
      exact get_eq_some.mpr ⟨mem_modify.mpr ⟨r, hmem, rfl⟩, (hsame r).trans hk⟩

theorem select_insert {t : Table ρ key} {p : ρ → Bool} {r : ρ} (hfree : t.get (key r) = none) :
    (t.insert r).select p = t.select p ++ [r].filter p := by
  have hnew : key r ∉ t.rows.map key := by
    intro hmem
    obtain ⟨s, hs, hkey⟩ := List.mem_map.mp hmem
    exact get_eq_none.mp hfree s hs hkey
  rw [select, select, insert, dif_neg hnew, List.filter_append]

/-- A row that is not selected. -/
theorem select_insert_of_not {t : Table ρ key} {p : ρ → Bool} {r : ρ} (hp : p r = false) :
    (t.insert r).select p = t.select p := by
  unfold insert
  split
  · rfl
  · simp [select, hp]

/-- An update that a view of the rows does not show. -/
theorem view_modify {β : Type*} {t : Table ρ key} {p : ρ → Bool} {f : ρ → ρ} {view : ρ → β}
    (hkey : ∀ r, key (f r) = key r) (hview : ∀ r, view (f r) = view r) (k : κ) :
    ((t.modify p f hkey).get k).map view = (t.get k).map view := by
  rw [get_modify, Option.map_map]
  congr 1
  funext r
  simp only [Function.comp_apply]
  split
  · exact hview r
  · rfl

/-- An update of the row under a key leaves a row of which the update is true. -/
theorem exists_of_modify {t : Table ρ key} {p : ρ → Bool} {f : ρ → ρ}
    (hkey : ∀ r, key (f r) = key r) {k : κ} {P : ρ → Prop} (hthere : (t.get k).isNone = false)
    (hp : ∀ r, key r = k → p r = true) (hP : ∀ r, P (f r)) :
    ∃ r, (t.modify p f hkey).get k = some r ∧ P r := by
  obtain ⟨r, hget⟩ := Option.isSome_iff_exists.mp (Option.isNone_eq_false_iff.mp hthere)
  exact ⟨f r, by simp [hget, hp r (key_of_get hget)], hP r⟩

@[simp] theorem get_erase (t : Table ρ key) (p : ρ → Bool) (k : κ) :
    (t.erase p).get k = (t.get k).filter fun r => !p r := by
  cases hfound : t.get k with
  | none =>
      simp only [Option.filter_none, get_eq_none, mem_erase]
      exact fun r hr => get_eq_none.mp hfound r hr.1
  | some r =>
      obtain ⟨hmem, rfl⟩ := get_eq_some.mp hfound
      cases hp : p r with
      | false =>
          simp only [Option.filter_some, hp, Bool.not_false, if_true]
          exact get_of_mem (mem_erase.mpr ⟨hmem, hp⟩)
      | true =>
          simp only [Option.filter_some, hp, Bool.not_true, Bool.false_eq_true, if_false,
            get_eq_none, mem_erase]
          rintro s ⟨hs, hps⟩ hkey
          rw [eq_of_key_eq hs hmem hkey, hp] at hps
          cases hps

theorem mem_insert {t : Table ρ key} {r s : ρ} (hfree : t.get (key r) = none) :
    s ∈ t.insert r ↔ s ∈ t ∨ s = r := by
  rw [mem_iff_get, mem_iff_get, get_insert]
  by_cases hkey : key r = key s
  · rw [← hkey, hfree]
    simp [hkey, eq_comm]
  · have hne : s ≠ r := fun h => hkey (by rw [h])
    simp [hkey, hne]

theorem mem_insert_of_mem {t : Table ρ key} {r s : ρ} (h : s ∈ t) : s ∈ t.insert r := by
  rw [mem_iff_get, get_insert, get_of_mem h]
  simp

/-- Whatever an insert leaves in the table was there before or is the new row. -/
theorem mem_or_eq_of_mem_insert {t : Table ρ key} {r s : ρ} (h : s ∈ t.insert r) :
    s ∈ t ∨ s = r := by
  unfold insert at h
  split at h
  · exact Or.inl h
  · simpa [← mem_rows] using h

/-- A new row comes last. -/
theorem first?_insert_of_some {t : Table ρ key} {p : ρ → Bool} {r s : ρ}
    (h : t.first? p = some r) : (t.insert s).first? p = some r := by
  unfold insert
  split
  · exact h
  · have hfound : t.rows.find? p = some r := h
    simp [first?, List.find?_append, hfound]

theorem first?_insert_of_none {t : Table ρ key} {p : ρ → Bool} {s : ρ}
    (hfree : t.get (key s) = none) (h : t.first? p = none) (hp : p s = true) :
    (t.insert s).first? p = some s := by
  have hkey : key s ∉ t.rows.map key := by
    rintro htaken
    obtain ⟨r, hr, hkey⟩ := List.mem_map.mp htaken
    exact get_eq_none.mp hfree r hr hkey
  have hfound : t.rows.find? p = none := h
  simp [insert, hkey, first?, List.find?_append, hfound, hp]

/-- Where the key is the whole row, adding a row that is there changes nothing. -/
theorem mem_insert_of_injective (hkey : Function.Injective key) {t : Table ρ key} {r s : ρ} :
    s ∈ t.insert r ↔ s ∈ t ∨ s = r := by
  refine ⟨mem_or_eq_of_mem_insert, ?_⟩
  rintro (hold | rfl)
  · exact mem_insert_of_mem hold
  · rw [mem_iff_get, get_insert, if_pos rfl]
    cases hfound : t.get (key s) with
    | none => rfl
    | some r => rw [Option.some_or, hkey (key_of_get hfound)]

theorem mem_iff_get_ne_none (hkey : Function.Injective key) {t : Table ρ key} {r : ρ} :
    r ∈ t ↔ t.get (key r) ≠ none := by
  constructor
  · intro hr
    simp [get_of_mem hr]
  · intro hsome
    obtain ⟨s, hget⟩ := Option.ne_none_iff_exists'.mp hsome
    rw [← hkey (key_of_get hget)]
    exact mem_of_get hget

/-- Adding a row concerns no other row. -/
theorem mem_insert_of_ne {t : Table ρ key} {r s : ρ} (hne : s ≠ r) : s ∈ t.insert r ↔ s ∈ t :=
  ⟨fun h => (mem_or_eq_of_mem_insert h).resolve_right hne, mem_insert_of_mem⟩

end Table

end Relational
