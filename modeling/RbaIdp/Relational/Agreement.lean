import Mathlib.Data.List.Perm.Basic
import RbaIdp.Relational.Table

/-!
# Unique columns, and tables that agree on some rows

`UniqueBy t k`: no two rows of the table have the same value under `k`, which is
what a unique constraint says.

`AgreeOn own own' t t'`: the rows of `t` that satisfy `own` are the rows of `t'`
that satisfy `own'`.  Statements that only look at such rows keep it, and
conditions that only such rows can meet read the same in both tables.
-/

namespace Relational

namespace Table

variable {ρ κ ι : Type*} {key : ρ → κ} {t t' t'' : Table ρ key} {r row : ρ}

/-! ## Unique columns -/

def UniqueBy (t : Table ρ key) (k : ρ → ι) : Prop := ∀ r ∈ t, ∀ s ∈ t, k r = k s → r = s

variable {k : ρ → ι}

instance [DecidableEq ρ] [DecidableEq ι] : Decidable (t.UniqueBy k) :=
  inferInstanceAs (Decidable (∀ r ∈ t.rows, ∀ s ∈ t.rows, k r = k s → r = s))

theorem uniqueBy_empty : UniqueBy (empty : Table ρ key) k :=
  fun r hr => absurd hr (not_mem_empty r)

theorem UniqueBy.insert [DecidableEq κ] (h : t.UniqueBy k) (hfree : ∀ s ∈ t, k s ≠ k row) :
    (t.insert row).UniqueBy k := by
  intro r hr s hs hk
  rcases mem_or_eq_of_mem_insert hr with hold | rfl <;>
    rcases mem_or_eq_of_mem_insert hs with hold' | rfl
  · exact h r hold s hold' hk
  · exact absurd hk (hfree r hold)
  · exact absurd hk.symm (hfree s hold')
  · rfl

theorem UniqueBy.erase (h : t.UniqueBy k) {p : ρ → Bool} : (t.erase p).UniqueBy k :=
  fun r hr s hs => h r (mem_erase.mp hr).1 s (mem_erase.mp hs).1

/-- An update that leaves the columns alone. -/
theorem UniqueBy.modify (h : t.UniqueBy k) {p : ρ → Bool} {f : ρ → ρ}
    (hkey : ∀ r, key (f r) = key r) (hk : ∀ r, k (f r) = k r) : (t.modify p f hkey).UniqueBy k := by
  have hsame : ∀ s, k (if p s then f s else s) = k s := by
    intro s
    split
    · exact hk s
    · rfl
  intro r hr s hs heq
  obtain ⟨r₀, hr₀, rfl⟩ := mem_modify.mp hr
  obtain ⟨s₀, hs₀, rfl⟩ := mem_modify.mp hs
  rw [hsame, hsame] at heq
  rw [h r₀ hr₀ s₀ hs₀ heq]

/-- An update of one row, to values no other row has. -/
theorem UniqueBy.modify_one (h : t.UniqueBy k) {p : ρ → Bool} {f : ρ → ρ}
    (hkey : ∀ r, key (f r) = key r) (hone : ∀ r ∈ t, ∀ s ∈ t, p r = true → p s = true → r = s)
    (hfree : ∀ r ∈ t, ∀ s ∈ t, p r = true → p s = false → k s ≠ k (f r)) :
    (t.modify p f hkey).UniqueBy k := by
  intro r hr s hs heq
  obtain ⟨r₀, hr₀, rfl⟩ := mem_modify.mp hr
  obtain ⟨s₀, hs₀, rfl⟩ := mem_modify.mp hs
  cases hpr : p r₀ <;> cases hps : p s₀ <;> simp only [hpr, hps, if_true, Bool.false_eq_true,
    if_false] at heq ⊢
  · exact h r₀ hr₀ s₀ hs₀ heq
  · exact absurd heq (hfree s₀ hs₀ r₀ hr₀ hps hpr)
  · exact absurd heq.symm (hfree r₀ hr₀ s₀ hs₀ hpr hps)
  · rw [hone r₀ hr₀ s₀ hs₀ hpr hps]

/-! ## Agreement -/

def AgreeOn (own own' : ρ → Prop) (t t' : Table ρ key) : Prop :=
  ∀ r, (r ∈ t ∧ own r) ↔ (r ∈ t' ∧ own' r)

variable {own own' own'' : ρ → Prop} {p : ρ → Bool} {f : ρ → ρ}

theorem AgreeOn.refl (own : ρ → Prop) (t : Table ρ key) : AgreeOn own own t t := fun _ => Iff.rfl

theorem AgreeOn.symm (h : AgreeOn own own' t t') : AgreeOn own' own t' t := fun r => (h r).symm

theorem AgreeOn.trans (h : AgreeOn own own' t t') (h' : AgreeOn own' own'' t' t'') :
    AgreeOn own own'' t t'' := fun r => (h r).trans (h' r)

/-- Other conditions, which the rows of the tables meet alike. -/
theorem AgreeOn.congr {o o' : ρ → Prop} (h : AgreeOn own own' t t') (ho : ∀ r ∈ t, own r ↔ o r)
    (ho' : ∀ r ∈ t', own' r ↔ o' r) : AgreeOn o o' t t' := by
  intro r
  rw [and_congr_right fun hr => (ho r hr).symm, and_congr_right fun hr => (ho' r hr).symm]
  exact h r

instance [DecidableEq ρ] [DecidablePred own] [DecidablePred own'] :
    Decidable (AgreeOn own own' t t') :=
  decidable_of_iff ((∀ r ∈ t.rows, own r → r ∈ t'.rows ∧ own' r) ∧
      ∀ r ∈ t'.rows, own' r → r ∈ t.rows ∧ own r) ⟨fun h r => ⟨fun hr => h.1 r hr.1 hr.2,
        fun hr => h.2 r hr.1 hr.2⟩, fun h => ⟨fun r hr ho => (h r).mp ⟨hr, ho⟩,
          fun r hr ho => (h r).mpr ⟨hr, ho⟩⟩⟩

/-! What both tables undergo. -/

theorem AgreeOn.insert [DecidableEq κ] (h : AgreeOn own own' t t')
    (hfree : t.get (key row) = none) (hfree' : t'.get (key row) = none)
    (hown : own row ↔ own' row) : AgreeOn own own' (t.insert row) (t'.insert row) := by
  intro r
  rw [mem_insert hfree, mem_insert hfree']
  have hr := h r
  constructor
  · rintro ⟨hold | rfl, ho⟩
    · obtain ⟨hold', ho'⟩ := hr.mp ⟨hold, ho⟩
      exact ⟨Or.inl hold', ho'⟩
    · exact ⟨Or.inr rfl, hown.mp ho⟩
  · rintro ⟨hold | rfl, ho⟩
    · obtain ⟨hold', ho'⟩ := hr.mpr ⟨hold, ho⟩
      exact ⟨Or.inl hold', ho'⟩
    · exact ⟨Or.inr rfl, hown.mpr ho⟩

theorem AgreeOn.erase (h : AgreeOn own own' t t') : AgreeOn own own' (t.erase p) (t'.erase p) := by
  intro r
  rw [mem_erase, mem_erase, and_right_comm, h r, and_right_comm]

theorem AgreeOn.modify (h : AgreeOn own own' t t') (hkey : ∀ r, key (f r) = key r)
    (hown : ∀ r, own (f r) ↔ own r) (hown' : ∀ r, own' (f r) ↔ own' r) :
    AgreeOn own own' (t.modify p f hkey) (t'.modify p f hkey) := by
  have hsame : ∀ {o : ρ → Prop}, (∀ r, o (f r) ↔ o r) → ∀ s, o (if p s then f s else s) ↔ o s := by
    intro o ho s
    split
    · exact ho s
    · rfl
  intro r
  rw [mem_modify, mem_modify]
  constructor
  · rintro ⟨⟨s, hs, rfl⟩, ho⟩
    obtain ⟨hs', ho'⟩ := (h s).mp ⟨hs, (hsame hown s).mp ho⟩
    exact ⟨⟨s, hs', rfl⟩, (hsame hown' s).mpr ho'⟩
  · rintro ⟨⟨s, hs, rfl⟩, ho⟩
    obtain ⟨hs', ho'⟩ := (h s).mpr ⟨hs, (hsame hown' s).mp ho⟩
    exact ⟨⟨s, hs', rfl⟩, (hsame hown s).mpr ho'⟩

/-! What concerns no row of `own`. -/

theorem agreeOn_insert [DecidableEq κ] (hown : ¬ own row) : AgreeOn own own t (t.insert row) := by
  refine fun r => ⟨fun h => ⟨mem_insert_of_mem h.1, h.2⟩, fun h => ⟨?_, h.2⟩⟩
  rcases mem_or_eq_of_mem_insert h.1 with hold | rfl
  · exact hold
  · exact absurd h.2 hown

theorem agreeOn_erase (hown : ∀ r ∈ t, p r = true → ¬ own r) : AgreeOn own own t (t.erase p) := by
  refine fun r => ⟨fun h => ⟨mem_erase.mpr ⟨h.1, ?_⟩, h.2⟩, fun h => ⟨(mem_erase.mp h.1).1, h.2⟩⟩
  by_contra hp
  exact hown r h.1 (by simpa using hp) h.2

theorem agreeOn_modify (hkey : ∀ r, key (f r) = key r)
    (hown : ∀ r ∈ t, p r = true → ¬ own r) (hsame : ∀ r, own (f r) ↔ own r) :
    AgreeOn own own t (t.modify p f hkey) := by
  intro r
  rw [mem_modify]
  constructor
  · rintro ⟨hr, ho⟩
    refine ⟨⟨r, hr, if_neg fun hp => hown r hr hp ho⟩, ho⟩
  · rintro ⟨⟨s, hs, rfl⟩, ho⟩
    split at ho
    · next hp => exact absurd ((hsame s).mp ho) (hown s hs hp)
    · next hp =>
      rw [if_neg hp]
      exact ⟨hs, ho⟩

/-! What reads the same. -/

theorem AgreeOn.mem (h : AgreeOn own own' t t') (hr : r ∈ t) (ho : own r) : r ∈ t' :=
  ((h r).mp ⟨hr, ho⟩).1

theorem AgreeOn.get_some [DecidableEq κ] (h : AgreeOn own own' t t') {i : κ}
    (hget : t.get i = some r) (ho : own r) : t'.get i = some r :=
  get_eq_some.mpr ⟨h.mem (mem_of_get hget) ho, key_of_get hget⟩

/-- A row that is its tenant's in both tables, or in neither. -/
theorem AgreeOn.get_filter [DecidableEq κ] (h : AgreeOn own own' t t') {i : κ} {q q' : ρ → Bool}
    (hq : ∀ r, q r = true ↔ own r) (hq' : ∀ r, q' r = true ↔ own' r) :
    (t.get i).filter q = (t'.get i).filter q' := by
  refine Option.ext fun r => ?_
  simp only [Option.filter_eq_some_iff, get_eq_some, hq, hq']
  rw [and_right_comm, h r, and_right_comm]

/-- A row that meets a condition only owned rows meet. -/
theorem AgreeOn.get_filter_of [DecidableEq κ] (h : AgreeOn own own' t t') {i : κ} {q : ρ → Bool}
    (hq : ∀ r, q r = true → own r) (hq' : ∀ r, q r = true → own' r) :
    (t.get i).filter q = (t'.get i).filter q := by
  refine Option.ext fun r => ?_
  rw [Option.filter_eq_some_iff, Option.filter_eq_some_iff]
  exact ⟨fun ⟨hget, hr⟩ => ⟨h.get_some hget (hq r hr), hr⟩,
    fun ⟨hget, hr⟩ => ⟨h.symm.get_some hget (hq' r hr), hr⟩⟩

/-- Where every row under the key is owned, the tables have the same there. -/
theorem AgreeOn.get_eq [DecidableEq κ] (h : AgreeOn own own' t t') {i : κ}
    (ho : ∀ r, t.get i = some r → own r) (ho' : ∀ r, t'.get i = some r → own' r) :
    t.get i = t'.get i :=
  Option.ext fun r => ⟨fun hget => h.get_some hget (ho r hget),
    fun hget => h.symm.get_some hget (ho' r hget)⟩

theorem AgreeOn.perm_select (h : AgreeOn own own' t t') {q : ρ → Bool}
    (ho : ∀ r ∈ t, p r = true → own r ∧ q r = true)
    (ho' : ∀ r ∈ t', q r = true → own' r ∧ p r = true) : (t.select p).Perm (t'.select q) := by
  have hnodup : ∀ {t : Table ρ key} {p : ρ → Bool}, (t.select p).Nodup := fun {t p} =>
    (List.Nodup.of_map key t.nodup).filter p
  refine (List.perm_ext_iff_of_nodup hnodup hnodup).mpr fun r => ?_
  rw [mem_select, mem_select]
  constructor
  · rintro ⟨hr, hp⟩
    exact ⟨h.mem hr (ho r hr hp).1, (ho r hr hp).2⟩
  · rintro ⟨hr, hq⟩
    exact ⟨h.symm.mem hr (ho' r hr hq).1, (ho' r hr hq).2⟩

theorem AgreeOn.exists?_eq (h : AgreeOn own own' t t') (ho : ∀ r ∈ t, p r = true → own r)
    (ho' : ∀ r ∈ t', p r = true → own' r) : t.exists? p = t'.exists? p := by
  rw [Bool.eq_iff_iff, exists?_eq_true, exists?_eq_true]
  exact ⟨fun ⟨r, hr, hp⟩ => ⟨r, h.mem hr (ho r hr hp), hp⟩,
    fun ⟨r, hr, hp⟩ => ⟨r, h.symm.mem hr (ho' r hr hp), hp⟩⟩

/-- Where at most one row meets a condition, it is the first one in any order. -/
theorem first?_eq_some_iff (hone : ∀ r ∈ t, ∀ s ∈ t, p r = true → p s = true → r = s) :
    t.first? p = some r ↔ r ∈ t ∧ p r = true := by
  refine ⟨first?_eq_some, fun ⟨hr, hp⟩ => ?_⟩
  cases hfound : t.first? p with
  | none => exact absurd hp (List.find?_eq_none.mp hfound r hr)
  | some s =>
      obtain ⟨hs, hps⟩ := first?_eq_some hfound
      rw [hone s hs r hr hps hp]

theorem AgreeOn.first?_eq (h : AgreeOn own own' t t') (ho : ∀ r ∈ t, p r = true → own r)
    (ho' : ∀ r ∈ t', p r = true → own' r)
    (hone : ∀ r ∈ t, ∀ s ∈ t, p r = true → p s = true → r = s)
    (hone' : ∀ r ∈ t', ∀ s ∈ t', p r = true → p s = true → r = s) :
    t.first? p = t'.first? p := by
  refine Option.ext fun r => ?_
  rw [first?_eq_some_iff hone, first?_eq_some_iff hone']
  exact ⟨fun ⟨hr, hp⟩ => ⟨h.mem hr (ho r hr hp), hp⟩,
    fun ⟨hr, hp⟩ => ⟨h.symm.mem hr (ho' r hr hp), hp⟩⟩

end Table

end Relational
