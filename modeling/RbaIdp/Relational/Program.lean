import Mathlib.Data.List.Induction

/-!
# Transactional programs

A `Program` reads a database state, executes statements on it and calls out to
other services.  It is a function on traces: the current state, the statements
executed so far and the calls made so far.  Two things are fixed once and for
all here.

* **The journal.**  A program carries the proof that the state it leaves is the
  state it found with the statements it recorded applied to it.  No program can
  therefore change the database behind the back of its own record, and what
  holds of every statement (`Invariant`) holds of every program (`Program.run_invariant`).
* **The rules.**  `Program.wp m Q E t` says that `m`, started in `t`, ends in
  `Q` when it returns and in `E` when it raises.  Every constructor has a simp
  rule, so `simp` turns a goal about a program into the goals about its paths.

A statement may be refused by the database (`violates`): the program then
raises `Failure.integrity`.  `transaction` undoes the statements of a program
that raises, and keeps the calls it made.
-/

namespace Relational

/-- The statements `ω` a program may execute on a database state `σ`: which of
them the database refuses, and what the others do. -/
class Statement (σ ω : Type*) where
  violates : ω → σ → Bool
  effect : ω → σ → σ

/-- Why a program raised: the database refused a statement, or it chose to. -/
inductive Failure (ε : Type*) where
  | integrity
  | raised (error : ε)
deriving DecidableEq

/-- The state a program works on, with its record of statements and calls. -/
structure Trace (σ ω χ : Type*) where
  db : σ
  writes : List ω
  calls : List χ

section Commit

variable {σ ω : Type*} [Statement σ ω]

/-- Apply recorded statements one after the other; the first one the database
refuses refuses them all. -/
def commit : List ω → σ → Option σ
  | [], db => some db
  | w :: rest, db =>
      if Statement.violates w db then none else commit rest (Statement.effect w db)

attribute [local simp] commit

@[simp] theorem commit_nil (db : σ) : commit ([] : List ω) db = some db := rfl

theorem commit_cons_eq_some {w : ω} {rest : List ω} {db db' : σ} :
    commit (w :: rest) db = some db' ↔
      Statement.violates w db = false ∧ commit rest (Statement.effect w db) = some db' := by
  cases hviolates : Statement.violates w db <;> simp [commit, hviolates]

theorem commit_append (first second : List ω) (db : σ) :
    commit (first ++ second) db = (commit first db).bind (commit second) := by
  induction first generalizing db with
  | nil => rfl
  | cons w rest ih =>
      simp only [List.cons_append, commit]
      split
      · rfl
      · exact ih _

/-- A property every accepted statement keeps. -/
def Invariant (ω : Type*) [Statement σ ω] (I : σ → Prop) : Prop :=
  ∀ (w : ω) (db : σ), Statement.violates w db = false → I db → I (Statement.effect w db)

theorem commit_invariant {I : σ → Prop} (hI : Invariant ω I) {ws : List ω} {db db' : σ}
    (hcommit : commit ws db = some db') (hdb : I db) : I db' := by
  induction ws generalizing db with
  | nil =>
      cases hcommit
      exact hdb
  | cons w rest ih =>
      simp only [commit] at hcommit
      split at hcommit
      · cases hcommit
      · next haccepted => exact ih hcommit (hI w db (by simpa using haccepted) hdb)

/-- A relation between the states before and after that every accepted
statement respects is respected by the whole commit. -/
theorem commit_relation {R : σ → σ → Prop} (hrefl : ∀ db, R db db)
    (htrans : ∀ {a b c}, R a b → R b c → R a c) {ws : List ω} {db db' : σ}
    (hstep : ∀ w ∈ ws, ∀ db, Statement.violates w db = false → R db (Statement.effect w db))
    (hcommit : commit ws db = some db') : R db db' := by
  induction ws generalizing db with
  | nil =>
      cases hcommit
      exact hrefl _
  | cons w rest ih =>
      simp only [commit] at hcommit
      split at hcommit
      · cases hcommit
      · next haccepted =>
        refine htrans (hstep w (List.mem_cons_self ..) db (by simpa using haccepted)) ?_
        exact ih (fun v hv => hstep v (List.mem_cons_of_mem _ hv)) hcommit

/-- What one statement of a commit establishes and all of them keep holds after
the commit. -/
theorem commit_establishes {I : σ → Prop} {ws : List ω}
    (hkeep : ∀ v ∈ ws, ∀ db, Statement.violates v db = false → I db → I (Statement.effect v db))
    {w : ω} (hw : ∀ db, Statement.violates w db = false → I (Statement.effect w db))
    {db db' : σ} (hmem : w ∈ ws) (hcommit : commit ws db = some db') : I db' := by
  obtain ⟨init, rest, rfl⟩ := List.append_of_mem hmem
  rw [commit_append] at hcommit
  obtain ⟨mid, -, hrest⟩ := Option.bind_eq_some_iff.mp hcommit
  obtain ⟨haccepted, hrest⟩ := commit_cons_eq_some.mp hrest
  refine commit_relation (R := fun a b => I a → I b) (fun _ h => h) (fun h h' => h' ∘ h)
    (fun v hv => hkeep v ?_) hrest (hw mid haccepted)
  exact List.mem_append_right _ (List.mem_cons_of_mem _ hv)

/-- The states a run of accepted statements passes through, each statement
meeting a condition in the state it is executed in. -/
inductive Path (P : σ → ω → Prop) : σ → List ω → σ → Prop where
  | nil {db : σ} : Path P db [] db
  | snoc {db mid : σ} {ws : List ω} {w : ω} (init : Path P db ws mid)
      (allowed : P mid w) (accepted : Statement.violates w mid = false) :
      Path P db (ws ++ [w]) (Statement.effect w mid)

/-- A path is a commit. -/
theorem Path.commit {P : σ → ω → Prop} {ws : List ω} {db db' : σ} (path : Path P db ws db') :
    commit ws db = some db' := by
  induction path with
  | nil => rfl
  | snoc _ _ accepted ih =>
      rw [commit_append, ih, Option.bind_some]
      simp [Relational.commit, accepted]

/-- A commit is a path, for any condition its statements meet everywhere. -/
theorem Path.of_commit {P : σ → ω → Prop} {ws : List ω} {db db' : σ}
    (hcommit : Relational.commit ws db = some db') (hP : ∀ w ∈ ws, ∀ db, P db w) :
    Path P db ws db' := by
  induction ws using List.reverseRecOn generalizing db' with
  | nil =>
      cases hcommit
      exact .nil
  | append_singleton init w ih =>
      rw [commit_append] at hcommit
      obtain ⟨mid, hinit, hlast⟩ := Option.bind_eq_some_iff.mp hcommit
      simp only [Relational.commit] at hlast
      split at hlast
      · cases hlast
      · next haccepted =>
        rw [← Option.some.inj hlast]
        exact .snoc (ih hinit fun v hv => hP v (List.mem_append_left _ hv))
          (hP w (List.mem_append_right _ (List.mem_singleton.mpr rfl)) mid)
          (by simpa using haccepted)

theorem Path.mono {P P' : σ → ω → Prop} (h : ∀ db w, P db w → P' db w) {ws : List ω} {db db' : σ}
    (path : Path P db ws db') : Path P' db ws db' := by
  induction path with
  | nil => exact .nil
  | snoc _ allowed accepted ih => exact ih.snoc (h _ _ allowed) accepted

/-- Every statement of a path met the condition somewhere on the way. -/
theorem Path.mem {P : σ → ω → Prop} {ws : List ω} {db db' : σ} (path : Path P db ws db') {w : ω}
    (hw : w ∈ ws) : ∃ mid, P mid w := by
  induction path with
  | nil => cases hw
  | snoc _ allowed _ ih =>
      rcases List.mem_append.mp hw with hw | hw
      · exact ih hw
      · rw [List.mem_singleton.mp hw]
        exact ⟨_, allowed⟩

theorem Path.invariant {P : σ → ω → Prop} {I : σ → Prop}
    (hI : ∀ db w, I db → P db w → Statement.violates w db = false → I (Statement.effect w db))
    {ws : List ω} {db db' : σ} (path : Path P db ws db') (hdb : I db) : I db' := by
  induction path with
  | nil => exact hdb
  | snoc _ allowed accepted ih => exact hI _ _ ih allowed accepted

end Commit

section Programs

variable {σ ω χ : Type*} [Statement σ ω]

/-- The second trace extends the record of the first, and its state is the
first one's with the new statements applied. -/
def Journal (t t' : Trace σ ω χ) : Prop :=
  (∃ ws, t'.writes = t.writes ++ ws ∧ commit ws t.db = some t'.db) ∧
    ∃ cs, t'.calls = t.calls ++ cs

theorem Journal.refl (t : Trace σ ω χ) : Journal t t :=
  ⟨⟨[], by simp, rfl⟩, [], by simp⟩

theorem Journal.trans {t t' t'' : Trace σ ω χ} (h : Journal t t') (h' : Journal t' t'') :
    Journal t t'' := by
  obtain ⟨⟨ws, hws, hdb⟩, cs, hcs⟩ := h
  obtain ⟨⟨ws', hws', hdb'⟩, cs', hcs'⟩ := h'
  refine ⟨⟨ws ++ ws', by rw [hws', hws, List.append_assoc], ?_⟩,
    cs ++ cs', by rw [hcs', hcs, List.append_assoc]⟩
  rw [commit_append, hdb]
  exact hdb'

/-- Execute one accepted statement. -/
def Trace.exec (t : Trace σ ω χ) (w : ω) : Trace σ ω χ :=
  { t with db := Statement.effect w t.db, writes := t.writes ++ [w] }

@[simp] theorem Trace.exec_db (t : Trace σ ω χ) (w : ω) :
    (t.exec w).db = Statement.effect w t.db := rfl

@[simp] theorem Trace.exec_writes (t : Trace σ ω χ) (w : ω) :
    (t.exec w).writes = t.writes ++ [w] := rfl

@[simp] theorem Trace.exec_calls (t : Trace σ ω χ) (w : ω) : (t.exec w).calls = t.calls := rfl

theorem Journal.exec {t : Trace σ ω χ} {w : ω} (haccepted : Statement.violates w t.db = false) :
    Journal t (t.exec w) :=
  ⟨⟨[w], rfl, by simp [commit, haccepted]⟩, [], by simp⟩

/-- The second trace extends the first by statements that each met a condition
in the state they were executed in. -/
def Extends (P : σ → ω → Prop) (t t' : Trace σ ω χ) : Prop :=
  ∃ ws, t'.writes = t.writes ++ ws ∧ Path P t.db ws t'.db

theorem Extends.refl {P : σ → ω → Prop} (t : Trace σ ω χ) : Extends P t t :=
  ⟨[], by simp, .nil⟩

theorem Extends.exec {P : σ → ω → Prop} {t t' : Trace σ ω χ} {w : ω} (h : Extends P t t')
    (allowed : P t'.db w) (accepted : Statement.violates w t'.db = false) :
    Extends P t (t'.exec w) := by
  obtain ⟨ws, hws, path⟩ := h
  exact ⟨ws ++ [w], by rw [Trace.exec_writes, hws, List.append_assoc], path.snoc allowed accepted⟩

end Programs

/-- A program over states `σ` with statements `ω`, calls `χ` and exceptions `ε`. -/
@[ext]
structure Program (σ ω χ ε : Type*) [Statement σ ω] (α : Type*) where
  run : Trace σ ω χ → Except (Failure ε) α × Trace σ ω χ
  journaled : ∀ t, Journal t (run t).2

namespace Program

universe v

variable {σ ω χ ε : Type*} [Statement σ ω] {α β : Type v}

/-! ## Constructors -/

/-- Return a value. -/
def ret (a : α) : Program σ ω χ ε α := ⟨fun t => (.ok a, t), Journal.refl⟩

/-- Run a program, then the one its value selects. -/
def andThen (m : Program σ ω χ ε α) (f : α → Program σ ω χ ε β) : Program σ ω χ ε β where
  run t :=
    match m.run t with
    | (.ok a, t') => (f a).run t'
    | (.error e, t') => (.error e, t')
  journaled t := by
    have hm := m.journaled t
    rcases hrun : m.run t with ⟨e | a, t'⟩
    · rw [hrun] at hm
      exact hm
    · rw [hrun] at hm
      exact hm.trans ((f a).journaled t')

instance : Monad (Program σ ω χ ε) where
  pure := ret
  bind := andThen

/-- Raise an exception. -/
def raise (e : ε) : Program σ ω χ ε α := ⟨fun t => (.error (.raised e), t), Journal.refl⟩

/-- Read the current state. -/
def read (f : σ → α) : Program σ ω χ ε α := ⟨fun t => (.ok (f t.db), t), Journal.refl⟩

/-- Execute a statement, or raise when the database refuses it. -/
def execute (w : ω) : Program σ ω χ ε Unit where
  run t := if Statement.violates w t.db then (.error .integrity, t) else (.ok (), t.exec w)
  journaled t := by
    split
    · exact Journal.refl t
    · next haccepted => exact Journal.exec (by simpa using haccepted)

/-- Record a call to another service. -/
def call (c : χ) : Program σ ω χ ε Unit where
  run t := (.ok (), { t with calls := t.calls ++ [c] })
  journaled t := ⟨⟨[], by simp, rfl⟩, [c], rfl⟩

/-- Run a program as one transaction: raising undoes its statements. -/
def transaction (m : Program σ ω χ ε α) : Program σ ω χ ε α where
  run t :=
    match m.run t with
    | (.ok a, t') => (.ok a, t')
    | (.error e, t') => (.error e, { t with calls := t'.calls })
  journaled t := by
    have hm := m.journaled t
    rcases hrun : m.run t with ⟨e | a, t'⟩
    · rw [hrun] at hm
      exact ⟨⟨[], by simp, rfl⟩, hm.2⟩
    · rw [hrun] at hm
      exact hm

/-- Turn a refused statement into an exception. -/
def onIntegrity (m : Program σ ω χ ε α) (e : ε) : Program σ ω χ ε α where
  run t :=
    match m.run t with
    | (.error .integrity, t') => (.error (.raised e), t')
    | (r, t') => (r, t')
  journaled t := by
    have hm := m.journaled t
    rcases hrun : m.run t with ⟨(_ | e) | a, t'⟩ <;> (rw [hrun] at hm; exact hm)

/-- Run a program and swallow what it raises. -/
def attempt (m : Program σ ω χ ε Unit) : Program σ ω χ ε Unit where
  run t := (.ok (), (m.run t).2)
  journaled t := m.journaled t

/-- The value of an option, or an exception. -/
def require (o : Option α) (e : ε) : Program σ ω χ ε α :=
  match o with
  | some a => pure a
  | none => raise e

/-- Raise when a condition holds. -/
def raiseIf (c : Prop) [Decidable c] (e : ε) : Program σ ω χ ε Unit :=
  if c then raise e else pure ()

/-- Run a program when a condition holds. -/
def when (c : Prop) [Decidable c] (m : Program σ ω χ ε Unit) : Program σ ω χ ε Unit :=
  if c then m else pure ()

/-- Run a program on the value of an option, if there is one. -/
def ifSome (o : Option α) (f : α → Program σ ω χ ε Unit) : Program σ ω χ ε Unit :=
  match o with
  | some a => f a
  | none => pure ()

/-- Run a program for every element of a list, in order. -/
def forEach : List α → (α → Program σ ω χ ε Unit) → Program σ ω χ ε Unit
  | [], _ => pure ()
  | a :: rest, f => do
      f a
      forEach rest f

/-! ## Runs -/

@[simp] theorem run_pure (a : α) (t : Trace σ ω χ) :
    (pure a : Program σ ω χ ε α).run t = (.ok a, t) := rfl

theorem run_bind (m : Program σ ω χ ε α) (f : α → Program σ ω χ ε β) (t : Trace σ ω χ) :
    (m >>= f).run t =
      match m.run t with
      | (.ok a, t') => (f a).run t'
      | (.error e, t') => (.error e, t') := rfl

theorem run_bind_of_ok {m : Program σ ω χ ε α} {f : α → Program σ ω χ ε β}
    {t t' : Trace σ ω χ} {a : α} (h : m.run t = (.ok a, t')) :
    (m >>= f).run t = (f a).run t' := by
  rw [run_bind, h]

theorem run_bind_of_error {m : Program σ ω χ ε α} {f : α → Program σ ω χ ε β}
    {t t' : Trace σ ω χ} {e : Failure ε} (h : m.run t = (.error e, t')) :
    (m >>= f).run t = (.error e, t') := by
  rw [run_bind, h]

/-- Two programs that go on alike after the same beginning run alike. -/
theorem run_bind_congr {m : Program σ ω χ ε α} {f g : α → Program σ ω χ ε β} {t : Trace σ ω χ}
    (h : ∀ a t', m.run t = (.ok a, t') → (f a).run t' = (g a).run t') :
    (m >>= f).run t = (m >>= g).run t := by
  rw [run_bind, run_bind]
  rcases hrun : m.run t with ⟨e | a, t'⟩
  · rfl
  · exact h a t' hrun

@[simp] theorem run_read (f : σ → α) (t : Trace σ ω χ) :
    (read f : Program σ ω χ ε α).run t = (.ok (f t.db), t) := rfl

theorem run_execute {w : ω} {t : Trace σ ω χ} (h : Statement.violates w t.db = false) :
    (execute w : Program σ ω χ ε Unit).run t = (.ok (), t.exec w) := by
  simp only [execute, h, Bool.false_eq_true, if_false]

theorem run_execute_refused {w : ω} {t : Trace σ ω χ} (h : Statement.violates w t.db = true) :
    (execute w : Program σ ω χ ε Unit).run t = (.error .integrity, t) := by
  simp only [execute, h, if_true]

theorem run_transaction_ok {m : Program σ ω χ ε α} {t t' : Trace σ ω χ} {a : α}
    (h : m.run t = (.ok a, t')) : (transaction m).run t = (.ok a, t') := by
  simp only [transaction, h]

theorem run_transaction_error {m : Program σ ω χ ε α} {t t' : Trace σ ω χ} {e : Failure ε}
    (h : m.run t = (.error e, t')) :
    (transaction m).run t = (.error e, { t with calls := t'.calls }) := by
  simp only [transaction, h]

/-- A transaction that raises leaves the state it found. -/
theorem transaction_db_of_error {m : Program σ ω χ ε α} {t t' : Trace σ ω χ} {e : Failure ε}
    (h : (transaction m).run t = (.error e, t')) : t'.db = t.db := by
  simp only [transaction] at h
  split at h <;> cases h
  rfl

@[simp] theorem run_raise (e : ε) (t : Trace σ ω χ) :
    (raise e : Program σ ω χ ε α).run t = (.error (.raised e), t) := rfl

/-! ## What holds of every statement holds of every program -/

theorem run_invariant {I : σ → Prop} (hI : Invariant ω I) (m : Program σ ω χ ε α)
    {t : Trace σ ω χ} (ht : I t.db) : I (m.run t).2.db := by
  obtain ⟨⟨ws, -, hcommit⟩, -⟩ := m.journaled t
  exact commit_invariant hI hcommit ht

/-! ## Rules -/

/-- What is asked of a result: `Q` when it is a value, `E` when it is an exception. -/
def Outcome (Q : α → Trace σ ω χ → Prop) (E : Trace σ ω χ → Prop) :
    Except (Failure ε) α × Trace σ ω χ → Prop
  | (.ok a, t) => Q a t
  | (.error _, t) => E t

omit [Statement σ ω] in
@[simp] theorem outcome_ok {Q : α → Trace σ ω χ → Prop} {E : Trace σ ω χ → Prop} {a : α}
    {t : Trace σ ω χ} : Outcome (ε := ε) Q E (.ok a, t) ↔ Q a t := Iff.rfl

omit [Statement σ ω] in
@[simp] theorem outcome_error {Q : α → Trace σ ω χ → Prop} {E : Trace σ ω χ → Prop}
    {e : Failure ε} {t : Trace σ ω χ} : Outcome Q E (.error e, t) ↔ E t := Iff.rfl

/-- Started in `t`, the program returns into `Q` or raises into `E`. -/
def wp (m : Program σ ω χ ε α) (Q : α → Trace σ ω χ → Prop) (E : Trace σ ω χ → Prop)
    (t : Trace σ ω χ) : Prop :=
  Outcome Q E (m.run t)

variable {Q Q' : α → Trace σ ω χ → Prop} {E E' : Trace σ ω χ → Prop} {t : Trace σ ω χ}

theorem wp_of_ok {m : Program σ ω χ ε α} {a : α} {t' : Trace σ ω χ} (h : m.wp Q E t)
    (hrun : m.run t = (.ok a, t')) : Q a t' := by
  simpa only [wp, hrun, outcome_ok, outcome_error] using h

theorem wp_of_error {m : Program σ ω χ ε α} {e : Failure ε} {t' : Trace σ ω χ} (h : m.wp Q E t)
    (hrun : m.run t = (.error e, t')) : E t' := by
  simpa only [wp, hrun, outcome_ok, outcome_error] using h

theorem wp_intro {m : Program σ ω χ ε α} (hok : ∀ a t', m.run t = (.ok a, t') → Q a t')
    (herror : ∀ e t', m.run t = (.error e, t') → E t') : m.wp Q E t := by
  unfold wp
  rcases hrun : m.run t with ⟨e | a, t'⟩
  · exact herror e t' hrun
  · exact hok a t' hrun

theorem wp_mono {m : Program σ ω χ ε α} (h : m.wp Q E t) (hQ : ∀ a t', Q a t' → Q' a t')
    (hE : ∀ t', E t' → E' t') : m.wp Q' E' t :=
  wp_intro (fun a t' hrun => hQ a t' (wp_of_ok h hrun)) fun _ t' hrun => hE t' (wp_of_error h hrun)

@[simp] theorem wp_pure (a : α) : (pure a : Program σ ω χ ε α).wp Q E t ↔ Q a t := Iff.rfl

@[simp] theorem wp_bind (m : Program σ ω χ ε α) (f : α → Program σ ω χ ε β)
    (Q : β → Trace σ ω χ → Prop) :
    (m >>= f).wp Q E t ↔ m.wp (fun a t' => (f a).wp Q E t') E t := by
  show Outcome Q E ((andThen m f).run t) ↔ Outcome _ E (m.run t)
  rcases hrun : m.run t with ⟨e | a, t'⟩ <;> simp [andThen, wp, hrun]

@[simp] theorem wp_raise (e : ε) : (raise e : Program σ ω χ ε α).wp Q E t ↔ E t := Iff.rfl

@[simp] theorem wp_read (f : σ → α) : (read f : Program σ ω χ ε α).wp Q E t ↔ Q (f t.db) t :=
  Iff.rfl

@[simp] theorem wp_execute (w : ω) (Q : Unit → Trace σ ω χ → Prop) :
    (execute w : Program σ ω χ ε Unit).wp Q E t ↔
      (Statement.violates w t.db = true → E t) ∧
        (Statement.violates w t.db = false → Q () (t.exec w)) := by
  by_cases h : Statement.violates w t.db = true <;> simp [wp, execute, h]

@[simp] theorem wp_call (c : χ) (Q : Unit → Trace σ ω χ → Prop) :
    (call c : Program σ ω χ ε Unit).wp Q E t ↔ Q () { t with calls := t.calls ++ [c] } :=
  Iff.rfl

@[simp] theorem wp_transaction (m : Program σ ω χ ε α) :
    (transaction m).wp Q E t ↔ m.wp Q (fun t' => E { t with calls := t'.calls }) t := by
  rcases hrun : m.run t with ⟨e | a, t'⟩ <;> simp [transaction, wp, hrun]

@[simp] theorem wp_onIntegrity (m : Program σ ω χ ε α) (e : ε) :
    (onIntegrity m e).wp Q E t ↔ m.wp Q E t := by
  rcases hrun : m.run t with ⟨(_ | e) | a, t'⟩ <;> simp [onIntegrity, wp, hrun]

@[simp] theorem wp_attempt (m : Program σ ω χ ε Unit) (Q : Unit → Trace σ ω χ → Prop) :
    (attempt m).wp Q E t ↔ m.wp Q (Q ()) t := by
  rcases hrun : m.run t with ⟨e | a, t'⟩ <;> simp [attempt, wp, hrun]

@[simp] theorem wp_require (o : Option α) (e : ε) :
    (require o e : Program σ ω χ ε α).wp Q E t ↔ (o = none → E t) ∧ ∀ a, o = some a → Q a t := by
  cases o <;> simp [require]

@[simp] theorem wp_raiseIf (c : Prop) [Decidable c] (e : ε) (Q : Unit → Trace σ ω χ → Prop) :
    (raiseIf c e : Program σ ω χ ε Unit).wp Q E t ↔ (c → E t) ∧ (¬ c → Q () t) := by
  by_cases h : c <;> simp [raiseIf, h]

@[simp] theorem wp_when (c : Prop) [Decidable c] (m : Program σ ω χ ε Unit)
    (Q : Unit → Trace σ ω χ → Prop) :
    (when c m).wp Q E t ↔ (c → m.wp Q E t) ∧ (¬ c → Q () t) := by
  by_cases h : c <;> simp [when, h]

@[simp] theorem wp_ifSome (o : Option α) (f : α → Program σ ω χ ε Unit)
    (Q : Unit → Trace σ ω χ → Prop) :
    (ifSome o f).wp Q E t ↔ (o = none → Q () t) ∧ ∀ a, o = some a → (f a).wp Q E t := by
  cases o <;> simp [ifSome]

@[simp] theorem wp_ite (c : Prop) [Decidable c] (m n : Program σ ω χ ε α) :
    (if c then m else n).wp Q E t ↔ (c → m.wp Q E t) ∧ (¬ c → n.wp Q E t) := by
  by_cases h : c <;> simp [h]

/-- The rule for sequences: an assertion that holds between two programs. -/
theorem wp_seq {m : Program σ ω χ ε α} {f : α → Program σ ω χ ε β} {I : α → Trace σ ω χ → Prop}
    {Q : β → Trace σ ω χ → Prop} (hm : m.wp I E t)
    (hf : ∀ a t', I a t' → (f a).wp Q E t') : (m >>= f).wp Q E t := by
  rw [wp_bind]
  exact wp_mono hm hf fun _ h => h

/-- The rule for loops: what every iteration keeps, the loop keeps. -/
theorem wp_forEach {xs : List α} {f : α → Program σ ω χ ε Unit} {I : Trace σ ω χ → Prop}
    (hstep : ∀ a ∈ xs, ∀ t, I t → (f a).wp (fun _ => I) E t) (ht : I t) :
    (forEach xs f).wp (fun _ => I) E t := by
  induction xs generalizing t with
  | nil => exact ht
  | cons a rest ih =>
      simp only [forEach, wp_bind]
      refine wp_mono (hstep a (List.mem_cons_self ..) t ht) (fun _ t' ht' => ?_) fun _ h => h
      exact ih (fun b hb => hstep b (List.mem_cons_of_mem _ hb)) ht'

/-- The rule for loops that collect: every iteration adds an entry to what is
asserted. -/
theorem wp_forEach_collect {γ : Type*} {J : List γ → Trace σ ω χ → Prop} {g : α → γ}
    (hmono : ∀ {S S' : List γ} {t}, S' ⊆ S → J S t → J S' t) {xs : List α}
    {f : α → Program σ ω χ ε Unit} {S : List γ}
    (hstep : ∀ a ∈ xs, ∀ S t, J S t → (f a).wp (fun _ => J (g a :: S)) E t) (ht : J S t) :
    (forEach xs f).wp (fun _ => J (xs.map g ++ S)) E t := by
  induction xs generalizing S t with
  | nil => exact ht
  | cons a rest ih =>
      simp only [forEach]
      refine wp_seq (hstep a (List.mem_cons_self ..) S t ht) fun _ t' ht' => ?_
      refine wp_mono (ih (fun b hb => hstep b (List.mem_cons_of_mem _ hb)) ht')
        (fun _ t'' h => hmono ?_ h) fun _ h => h
      intro c hc
      simp only [List.map_cons, List.cons_append, List.mem_cons, List.mem_append] at hc ⊢
      tauto

end Program

end Relational
