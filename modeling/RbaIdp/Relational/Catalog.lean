import RbaIdp.Relational.Program
import RbaIdp.Relational.Table

/-!
# Catalogs, and bringing them up to date

A catalog is the tables of a database, each with its columns and its rows.  A `Plan`
says what it should have: a list of definitions, and the columns by which a table is
known to be so old that it is dropped.

`Plan.Step` is one statement of an upgrade: drop a table that is too old, create one
that is not there, add the first column that is missing and may be null.
`Plan.upgraded` is what an upgrade comes to, and no step changes it
(`Plan.upgraded_step`).  So an upgrade may stop anywhere, and whoever resumes it comes
to the same tables.
-/

namespace Relational

/-! ## Paths -/

section Paths

variable {σ ω : Type*} [Statement σ ω] {P : σ → ω → Prop} {db db' : σ}

/-- Where no statement is allowed, a path goes nowhere. -/
theorem Path.eq_nil {ws : List ω} (path : Path P db ws db') (hstuck : ∀ w, ¬ P db w) : ws = [] := by
  induction path with
  | nil => rfl
  | @snoc _ _ w init allowed _ ih =>
      rw [ih] at init
      have hsame := init.commit
      rw [commit_nil, Option.some.injEq] at hsame
      rw [← hsame] at allowed
      exact absurd allowed (hstuck w)

/-- A path that is cut short is a path. -/
theorem Path.cut {ws vs : List ω} {mid : σ} (path : Path P db (ws ++ vs) db')
    (hmid : Relational.commit ws db = some mid) : Path P db ws mid := by
  induction vs using List.reverseRecOn generalizing db' with
  | nil =>
      rw [List.append_nil] at path
      rw [path.commit] at hmid
      rw [← Option.some.inj hmid]
      exact path
  | append_singleton vs w ih =>
      rw [← List.append_assoc] at path
      generalize hall : (ws ++ vs) ++ [w] = all at path
      cases path with
      | nil => simp at hall
      | snoc init _ _ =>
          obtain ⟨rfl, -⟩ := List.append_inj' hall rfl
          exact ih init

end Paths

/-! ## Catalogs -/

structure Column where
  name : String
  nullable : Bool

/-- What a table should be. -/
structure Definition where
  name : String
  columns : List Column

/-- What a table is.  A row has values in the columns of its table only. -/
structure Stored (V : Type*) where
  name : String
  columns : List String
  rows : List (String → Option V)
  closed : ∀ row ∈ rows, ∀ column, row column ≠ none → column ∈ columns

abbrev Catalog (V : Type*) := Table (Stored V) Stored.name

inductive Ddl where
  | dropTable (table : String)
  | createTable (definition : Definition)
  | addColumn (table column : String)

variable {V : Type*}

/-- The table a definition makes. -/
def Definition.fresh (V : Type*) (d : Definition) : Stored V :=
  ⟨d.name, d.columns.map Column.name, [], by simp⟩

/-- More columns, in which the rows that are there are null. -/
def Stored.extend (s : Stored V) (columns : List String) : Stored V where
  name := s.name
  columns := s.columns ++ columns
  rows := s.rows
  closed row hrow column hvalue := List.mem_append_left _ (s.closed row hrow column hvalue)

@[simp] theorem Definition.fresh_name (d : Definition) : (d.fresh V).name = d.name := rfl

@[simp] theorem Definition.fresh_columns (d : Definition) :
    (d.fresh V).columns = d.columns.map Column.name := rfl

@[simp] theorem Stored.extend_name (s : Stored V) (columns : List String) :
    (s.extend columns).name = s.name := rfl

@[simp] theorem Stored.extend_columns (s : Stored V) (columns : List String) :
    (s.extend columns).columns = s.columns ++ columns := rfl

@[simp] theorem Stored.extend_rows (s : Stored V) (columns : List String) :
    (s.extend columns).rows = s.rows := rfl

theorem Stored.extend_nil (s : Stored V) : s.extend [] = s := by
  simp [Stored.extend]

theorem Stored.extend_extend (s : Stored V) (first second : List String) :
    (s.extend first).extend second = s.extend (first ++ second) := by
  simp [Stored.extend]

def Ddl.violates : Ddl → Catalog V → Bool
  | .dropTable table, db => (db.get table).isNone
  | .createTable d, db => (db.get d.name).isSome
  | .addColumn table column, db => (db.get table).all fun s => s.columns.contains column

/-- A column that is added takes no value in the rows that are there. -/
def Ddl.effect : Ddl → Catalog V → Catalog V
  | .dropTable table, db => db.erase fun s => s.name == table
  | .createTable d, db => db.insert (d.fresh V)
  | .addColumn table column, db =>
      db.modify (fun s => s.name == table) (fun s => s.extend [column])
        fun s => s.extend_name [column]

instance : Statement (Catalog V) Ddl where
  violates := Ddl.violates
  effect := Ddl.effect

variable {db : Catalog V} {d : Definition} {table column name : String}

@[simp] theorem violates_dropTable :
    Statement.violates (Ddl.dropTable table) db = (db.get table).isNone := rfl

@[simp] theorem violates_createTable :
    Statement.violates (Ddl.createTable d) db = (db.get d.name).isSome := rfl

@[simp] theorem violates_addColumn : Statement.violates (Ddl.addColumn table column) db =
    (db.get table).all fun s => s.columns.contains column := rfl

theorem get_dropTable : (Statement.effect (Ddl.dropTable table) db).get name =
    if name = table then none else db.get name := by
  show (db.erase _).get name = _
  rw [Table.get_erase]
  cases hget : db.get name with
  | none => simp
  | some s =>
      have hkey : s.name = name := Table.key_of_get hget
      split <;> simp_all

theorem get_createTable (hfree : db.get d.name = none) :
    (Statement.effect (Ddl.createTable d) db).get name =
      if name = d.name then some (d.fresh V) else db.get name := by
  show (db.insert _).get name = _
  rw [Table.get_insert, Definition.fresh_name]
  split
  · next hsame => simp [← hsame, hfree]
  · next hne => simp [Ne.symm hne]

theorem get_addColumn : (Statement.effect (Ddl.addColumn table column) db).get name =
    if name = table then (db.get name).map fun s => s.extend [column] else db.get name := by
  show (Ddl.effect (.addColumn table column) db).get name = _
  rw [Ddl.effect, Table.get_modify]
  cases hget : db.get name with
  | none => simp
  | some s =>
      have hkey : s.name = name := Table.key_of_get hget
      by_cases hsame : name = table <;> simp [hkey, hsame]

/-! ## Plans -/

/-- What a catalog should have, and what is too old to be kept: a table with a column
that is `retired`.  Tables and columns are defined once, and none that is retired. -/
structure Plan where
  definitions : List Definition
  retired : String → String → Bool
  tables_nodup : (definitions.map Definition.name).Nodup
  columns_nodup : ∀ d ∈ definitions, (d.columns.map Column.name).Nodup
  current : ∀ d ∈ definitions, ∀ c ∈ d.columns, retired d.name c.name = false

/-- The columns that can be added to a table: those that are missing and may be null. -/
def Definition.missing (d : Definition) (s : Stored V) : List String :=
  (d.columns.filter fun c => c.nullable && !s.columns.contains c.name).map Column.name

theorem missing_eq_nil {d : Definition} {s : Stored V} :
    d.missing s = [] ↔ ∀ c ∈ d.columns, c.nullable = true → c.name ∈ s.columns := by
  simp [Definition.missing]

/-- Nothing can be added to the table of a definition. -/
def Filled (d : Definition) (db : Catalog V) : Prop :=
  ∃ s, db.get d.name = some s ∧ d.missing s = []

/-- Another column does not change that. -/
theorem filled_addColumn (h : Filled d db) :
    Filled d (Statement.effect (Ddl.addColumn table column) db) := by
  obtain ⟨s, hget, hnothing⟩ := h
  rw [Filled, get_addColumn, hget]
  split
  · refine ⟨_, rfl, missing_eq_nil.mpr fun c hc hnullable => ?_⟩
    exact List.mem_append_left _ (missing_eq_nil.mp hnothing c hc hnullable)
  · exact ⟨s, rfl, hnothing⟩

namespace Plan

variable {p : Plan} {s : Stored V}

def stale (p : Plan) (s : Stored V) : Bool := s.columns.any (p.retired s.name)

/-- The table of a name, unless it is too old. -/
def kept (p : Plan) (db : Catalog V) (name : String) : Option (Stored V) :=
  (db.get name).filter fun s => !p.stale s

/-- What an upgrade comes to: a new table where there was none or one that is too old,
and the columns that can be added to the others. -/
def upgraded (p : Plan) (db : Catalog V) (name : String) : Option (Stored V) :=
  match p.definitions.find? fun d => d.name == name with
  | none => p.kept db name
  | some d => some (((p.kept db name).map fun s => s.extend (d.missing s)).getD (d.fresh V))

/-- One statement of an upgrade. -/
inductive Step (p : Plan) (db : Catalog V) : Ddl → Prop where
  | drop {s : Stored V} (hget : db.get s.name = some s) (hstale : p.stale s = true) :
      Step p db (.dropTable s.name)
  | create {d : Definition} (hd : d ∈ p.definitions) (hnone : db.get d.name = none) :
      Step p db (.createTable d)
  /-- the columns before it that may be null are there -/
  | add {d : Definition} {s : Stored V} {before after : List Column} {c : Column}
      (hd : d ∈ p.definitions) (hget : db.get d.name = some s)
      (hcolumns : d.columns = before ++ c :: after) (hnullable : c.nullable = true)
      (hmissing : c.name ∉ s.columns)
      (hbefore : ∀ b ∈ before, b.nullable = true → b.name ∈ s.columns) :
      Step p db (.addColumn d.name c.name)

theorem find_definition {d : Definition} (hd : d ∈ p.definitions) :
    (p.definitions.find? fun e => e.name == d.name) = some d := by
  have hnodup := p.tables_nodup
  generalize p.definitions = ds at hd hnodup
  induction ds with
  | nil => cases hd
  | cons e rest ih =>
      rw [List.map_cons, List.nodup_cons] at hnodup
      rcases List.mem_cons.mp hd with rfl | hd
      · simp
      · have hne : e.name ≠ d.name := fun h => hnodup.1 (h ▸ List.mem_map_of_mem hd)
        simpa [hne] using ih hd hnodup.2

theorem upgraded_of_mem {d : Definition} (hd : d ∈ p.definitions) (db : Catalog V) :
    p.upgraded db d.name =
      some (((p.kept db d.name).map fun s => s.extend (d.missing s)).getD (d.fresh V)) := by
  rw [upgraded, find_definition hd]

/-- Tables that are kept alike are upgraded alike. -/
theorem upgraded_congr {db db' : Catalog V} {name : String}
    (h : p.kept db' name = p.kept db name) : p.upgraded db' name = p.upgraded db name := by
  rw [upgraded, upgraded, h]

theorem missing_fresh (d : Definition) : d.missing (d.fresh V) = [] := by
  simp only [Definition.missing, List.map_eq_nil_iff, List.filter_eq_nil_iff]
  intro c hc
  have hthere : (d.fresh V).columns.contains c.name = true :=
    List.contains_iff_mem.mpr (List.mem_map_of_mem hc)
  rw [hthere]
  simp

theorem stale_fresh {d : Definition} (hd : d ∈ p.definitions) : p.stale (d.fresh V) = false := by
  rw [stale, List.any_eq_false]
  intro column hcolumn
  obtain ⟨c, hc, rfl⟩ := List.mem_map.mp hcolumn
  simpa using p.current d hd c hc

theorem stale_extend {d : Definition} (hd : d ∈ p.definitions) (hname : s.name = d.name)
    {c : Column} (hc : c ∈ d.columns) : p.stale (s.extend [c.name]) = p.stale s := by
  simp [stale, hname, p.current d hd c hc]

/-- The first column that is missing goes first. -/
theorem missing_extend {d : Definition} {before after : List Column} {c : Column}
    (hnodup : (d.columns.map Column.name).Nodup) (hcolumns : d.columns = before ++ c :: after)
    (hnullable : c.nullable = true) (hmissing : c.name ∉ s.columns)
    (hbefore : ∀ b ∈ before, b.nullable = true → b.name ∈ s.columns) :
    c.name :: d.missing (s.extend [c.name]) = d.missing s := by
  have hskip : ∀ columns : List String, (∀ b ∈ before, b.nullable = true → b.name ∈ columns) →
      (before.filter fun b => b.nullable && !columns.contains b.name) = [] := by
    intro columns hthere
    rw [List.filter_eq_nil_iff]
    intro b hb
    cases hnull : b.nullable with
    | false => simp
    | true => simp [hthere b hb hnull]
  have hafter : ∀ b ∈ after, b.name ≠ c.name := by
    intro b hb hsame
    rw [hcolumns, List.map_append, List.map_cons, List.nodup_append, List.nodup_cons] at hnodup
    exact hnodup.2.1.1 (hsame ▸ List.mem_map_of_mem hb)
  have hrest : (after.filter fun b => b.nullable && !(s.columns ++ [c.name]).contains b.name) =
      after.filter fun b => b.nullable && !s.columns.contains b.name := by
    refine List.filter_congr fun b hb => ?_
    simp [hafter b hb]
  rw [Definition.missing, Definition.missing, hcolumns, List.filter_append, List.filter_append,
    hskip s.columns hbefore, hskip (s.extend [c.name]).columns
      (fun b hb hnull => List.mem_append_left _ (hbefore b hb hnull)), List.filter_cons_of_neg,
    List.filter_cons_of_pos, Stored.extend_columns, hrest]
  · rfl
  · simp [hnullable, hmissing]
  · simp

/-- **No step changes what an upgrade comes to.** -/
theorem upgraded_step {db : Catalog V} {w : Ddl} (h : Step p db w) :
    p.upgraded (Statement.effect w db) = p.upgraded db := by
  funext name
  cases h with
  | @drop s hget hstale =>
      refine upgraded_congr ?_
      rw [kept, kept, get_dropTable]
      split
      · next hsame => simp [hsame, hget, hstale, Option.filter_some]
      · rfl
  | @create d hd hnone =>
      by_cases hsame : name = d.name
      · rw [hsame, upgraded_of_mem hd, upgraded_of_mem hd, kept, kept, get_createTable hnone, hnone]
        simp [stale_fresh hd, missing_fresh, Stored.extend_nil, Option.filter_some]
      · refine upgraded_congr ?_
        rw [kept, kept, get_createTable hnone, if_neg hsame]
  | @add d s before after c hd hget hcolumns hnullable hmissing hbefore =>
      by_cases hsame : name = d.name
      · have hc : c ∈ d.columns := by simp [hcolumns]
        have hname : s.name = d.name := Table.key_of_get hget
        rw [hsame, upgraded_of_mem hd, upgraded_of_mem hd, kept, kept, get_addColumn, if_pos rfl,
          hget, Option.map_some, Option.filter_some, Option.filter_some, stale_extend hd hname hc]
        cases hstale : p.stale s with
        | true => rfl
        | false =>
            have hcomes := missing_extend (p.columns_nodup d hd) hcolumns hnullable hmissing hbefore
            simp [Stored.extend_extend, hcomes]
      · refine upgraded_congr ?_
        rw [kept, kept, get_addColumn, if_neg hsame]

/-! ## Where an upgrade ends -/

/-- Nothing is too old, everything is there, and no column can be added. -/
structure Done (p : Plan) (db : Catalog V) : Prop where
  current : ∀ name s, db.get name = some s → p.stale s = false
  filled : ∀ d ∈ p.definitions, Filled d db

theorem Done.upgraded {db : Catalog V} (h : Done p db) : p.upgraded db = db.get := by
  funext name
  have hkept : p.kept db name = db.get name := by
    rw [kept]
    cases hget : db.get name with
    | none => rfl
    | some s => simp [h.current name s hget]
  rw [Plan.upgraded, hkept]
  cases hfind : p.definitions.find? fun d => d.name == name with
  | none => rfl
  | some d =>
      have hname : d.name = name := by simpa using List.find?_some hfind
      obtain ⟨s, hget, hnothing⟩ := h.filled d (List.mem_of_find?_eq_some hfind)
      rw [hname] at hget
      simp [hget, hnothing, Stored.extend_nil]

theorem Done.not_step {db : Catalog V} (h : Done p db) (w : Ddl) : ¬ Step p db w := by
  intro hstep
  cases hstep with
  | drop hget hstale =>
      rw [h.current _ _ hget] at hstale
      cases hstale
  | create hd hnone =>
      obtain ⟨s, hget, -⟩ := h.filled _ hd
      rw [hnone] at hget
      cases hget
  | @add d s before after c hd hget hcolumns hnullable hmissing =>
      obtain ⟨s', hget', hnothing⟩ := h.filled d hd
      obtain rfl := Option.some.inj (hget'.symm.trans hget)
      exact hmissing (missing_eq_nil.mp hnothing c (by simp [hcolumns]) hnullable)

theorem upgraded_path {db db' : Catalog V} {ws : List Ddl} (path : Path (Step p) db ws db') :
    p.upgraded db' = p.upgraded db :=
  path.invariant (I := fun mid => p.upgraded mid = p.upgraded db)
    (fun _ _ hmid hstep _ => (upgraded_step hstep).trans hmid) rfl

end Plan

end Relational
