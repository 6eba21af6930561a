import Mathlib.Data.List.Induction
import Mathlib.Data.List.Nodup

/-!
# Dictionaries

Items in the order of insertion, one to a key: a key that is set again keeps its place and
takes the new value.  Items come back from the dictionary made of them exactly when no key
occurs twice (`ofItems_eq_self_iff`).
-/

namespace Encoding.Dict

variable {κ ν : Type*} [DecidableEq κ]

/-- `d[key] = value`, in the order of insertion -/
def setItem (d : List (κ × ν)) (item : κ × ν) : List (κ × ν) :=
  if item.1 ∈ d.map Prod.fst then d.map fun entry => if entry.1 = item.1 then item else entry
  else d ++ [item]

/-- `d.update(items)` -/
def update (d items : List (κ × ν)) : List (κ × ν) := items.foldl setItem d

/-- `dict(items)` -/
def ofItems (items : List (κ × ν)) : List (κ × ν) := update [] items

variable {d items : List (κ × ν)} {item : κ × ν}

theorem keys_setItem : (setItem d item).map Prod.fst =
    if item.1 ∈ d.map Prod.fst then d.map Prod.fst else d.map Prod.fst ++ [item.1] := by
  unfold setItem
  split
  · rw [List.map_map]
    refine List.map_congr_left fun entry _ => ?_
    by_cases hkey : entry.1 = item.1 <;> simp [hkey]
  · rw [List.map_append, List.map_singleton]

theorem setItem_new (h : item.1 ∉ d.map Prod.fst) : setItem d item = d ++ [item] := by
  rw [setItem, if_neg h]

theorem nodup_setItem (h : (d.map Prod.fst).Nodup) : ((setItem d item).map Prod.fst).Nodup := by
  rw [keys_setItem]
  split
  · exact h
  · next hnew =>
    rw [List.nodup_append_comm, List.singleton_append]
    exact List.nodup_cons.mpr ⟨hnew, h⟩

theorem ofItems_append (items : List (κ × ν)) (item : κ × ν) :
    ofItems (items ++ [item]) = setItem (ofItems items) item := by
  rw [ofItems, update, List.foldl_append]
  rfl

/-- No key of a dictionary occurs twice. -/
theorem nodup_ofItems (items : List (κ × ν)) : ((ofItems items).map Prod.fst).Nodup := by
  induction items using List.reverseRecOn with
  | nil => exact List.nodup_nil
  | append_singleton items item ih =>
      rw [ofItems_append]
      exact nodup_setItem ih

theorem mem_keys_ofItems {key : κ} :
    key ∈ (ofItems items).map Prod.fst ↔ key ∈ items.map Prod.fst := by
  induction items using List.reverseRecOn with
  | nil => exact Iff.rfl
  | append_singleton items item ih =>
      rw [ofItems_append, keys_setItem, List.map_append, List.mem_append, ← ih]
      split
      · next hold =>
        constructor
        · exact Or.inl
        · rintro (hkey | hkey)
          · exact hkey
          · rw [List.map_singleton, List.mem_singleton] at hkey
            exact hkey ▸ hold
      · rw [List.mem_append, List.map_singleton]

/-- A dictionary keeps items exactly when no key occurs twice. -/
theorem ofItems_eq_self_iff : ofItems items = items ↔ (items.map Prod.fst).Nodup := by
  constructor
  · intro hsame
    rw [← hsame]
    exact nodup_ofItems items
  · intro hnodup
    induction items using List.reverseRecOn with
    | nil => rfl
    | append_singleton items item ih =>
        rw [List.map_append, List.map_singleton, List.nodup_append_comm, List.singleton_append,
          List.nodup_cons] at hnodup
        have hkept := ih hnodup.2
        rw [ofItems_append, hkept, setItem_new hnodup.1]

end Encoding.Dict
