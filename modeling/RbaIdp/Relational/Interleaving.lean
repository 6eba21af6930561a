import Mathlib.Data.List.Perm.Basic
import RbaIdp.Relational.Program

/-!
# Transactions that overlap

A transaction reads the committed state once, decides what to write, and commits
its statements later, to whatever state is committed then.  Nothing is locked and
nothing is checked again, but for what the statements themselves refuse.

`Interleaving` is any order of reads and commits.  An invariant survives one when
every transaction keeps it on the strength of what it knows, and leaves the others
knowing what they knew.  A resource is used once, over a whole interleaving, when the
check that guards it fails on a state in which it is spent, when using it spends it,
and when no transaction that has passed the check is still in flight as another
commits its use.
-/

namespace Relational

variable {σ ω τ χ : Type*} [Statement σ ω]

/-- The committed state, the transactions that have read and are not done, and
the ones that have committed, latest first. -/
structure System (σ τ : Type*) where
  db : σ
  inFlight : List τ
  committed : List τ

/-- The systems that reads and commits lead to.  A transaction may be read when
`begins` allows it, and commit next to the others in flight when `ends` does. -/
inductive Interleaving (reads : τ → σ) (writes : τ → List ω) (begins : System σ τ → τ → Prop)
    (ends : List τ → τ → Prop) (start : σ) : System σ τ → Prop where
  | start : Interleaving reads writes begins ends start ⟨start, [], []⟩
  | read {sys : System σ τ} (init : Interleaving reads writes begins ends start sys) (t : τ)
      (hreads : reads t = sys.db) (hbegins : begins sys t) :
      Interleaving reads writes begins ends start ⟨sys.db, t :: sys.inFlight, sys.committed⟩
  | commit {db db' : σ} {before after committed : List τ} {t : τ}
      (init : Interleaving reads writes begins ends start ⟨db, before ++ t :: after, committed⟩)
      (hends : ends (before ++ after) t) (hcommit : Relational.commit (writes t) db = some db') :
      Interleaving reads writes begins ends start ⟨db', before ++ after, t :: committed⟩
  | abort {db : σ} {before after committed : List τ} {t : τ}
      (init : Interleaving reads writes begins ends start ⟨db, before ++ t :: after, committed⟩)
      (hrefused : Relational.commit (writes t) db = none) :
      Interleaving reads writes begins ends start ⟨db, before ++ after, committed⟩

variable {reads : τ → σ} {writes : τ → List ω} {begins : System σ τ → τ → Prop}
  {ends : List τ → τ → Prop} {start : σ} {sys : System σ τ}

/-- A relation that is symmetric, and that a transaction has to all the others
when it is read, holds between any two in flight or committed. -/
theorem Interleaving.pairwise {R : τ → τ → Prop} (hsymm : ∀ {t u}, R t u → R u t)
    (hbegins : ∀ sys t, begins sys t → ∀ u ∈ sys.inFlight ++ sys.committed, R t u)
    (run : Interleaving reads writes begins ends start sys) :
    (sys.inFlight ++ sys.committed).Pairwise R := by
  induction run with
  | start => exact .nil
  | read _ t _ hbegin ih => exact List.pairwise_cons.mpr ⟨hbegins _ t hbegin, ih⟩
  | @commit _ _ before after committed t _ _ _ ih =>
      have hperm : ((before ++ t :: after) ++ committed).Perm
          ((before ++ after) ++ t :: committed) := by
        simp only [List.append_assoc, List.cons_append]
        exact (List.perm_append_left_iff before).mpr List.perm_middle.symm
      exact (hperm.pairwise_iff fun h => hsymm h).mp ih
  | @abort _ before after committed t _ _ ih =>
      refine ih.sublist (List.Sublist.append_right ?_ committed)
      exact List.Sublist.append_left (List.sublist_cons_self t after) before

/-! ## What a transaction knows -/

/-- The statements of a transaction go from the state it has read, by way of what it
has checked, and are committed to another state.  What a statement keeps between two
such states, and of the second of them, all of them keep. -/
theorem Path.along {P : σ → ω → Prop} {R : σ → σ → Prop} {I : σ → Prop}
    (hstep : ∀ a b w, R a b → I b → P a w → Statement.violates w a = false →
      Statement.violates w b = false →
      R (Statement.effect w a) (Statement.effect w b) ∧ I (Statement.effect w b))
    {a a' b b' : σ} {ws : List ω} (path : Path P a ws a')
    (hcommit : Relational.commit ws b = some b') (hR : R a b) (hI : I b) : R a' b' ∧ I b' := by
  induction path generalizing b' with
  | nil =>
      cases hcommit
      exact ⟨hR, hI⟩
  | snoc _ allowed accepted ih =>
      rw [commit_append, Option.bind_eq_some_iff] at hcommit
      obtain ⟨mid, hinit, hlast⟩ := hcommit
      obtain ⟨haccepted, hdone⟩ := commit_cons_eq_some.mp hlast
      obtain rfl := Option.some.inj hdone
      obtain ⟨hmid, hImid⟩ := ih hinit
      exact hstep _ _ _ hmid hImid allowed accepted haccepted

/-- **Rely and guarantee.**  When a transaction that knows what it has read keeps the
invariant, and lets every other one in flight know what it knew, the invariant holds
after any order of reads and commits, and everybody in flight knows what they did. -/
theorem Interleaving.rely {I : σ → Prop} {K : τ → σ → Prop}
    (hreads : ∀ sys t, begins sys t → reads t = sys.db → K t sys.db)
    (hcommits : ∀ db db' others t, ends others t → K t db → I db →
      Relational.commit (writes t) db = some db' →
      I db' ∧ ∀ u ∈ others, K u db → K u db')
    (hstart : I start) (run : Interleaving reads writes begins ends start sys) :
    I sys.db ∧ ∀ t ∈ sys.inFlight, K t sys.db := by
  induction run with
  | start => exact ⟨hstart, by simp⟩
  | @read sys _ t hread hbegin ih =>
      exact ⟨ih.1, List.forall_mem_cons.mpr ⟨hreads sys t hbegin hread, ih.2⟩⟩
  | @commit db db' before after _ t _ hend hcommit ih =>
      obtain ⟨hI, hknow⟩ := ih
      have ht : K t db := hknow t (List.mem_append_right _ (List.mem_cons_self ..))
      obtain ⟨hafter, hothers⟩ := hcommits db db' _ t hend ht hI hcommit
      refine ⟨hafter, fun u hu => hothers u hu (hknow u ?_)⟩
      exact List.mem_append.mpr ((List.mem_append.mp hu).imp_right (List.mem_cons_of_mem t))
  | @abort _ before after _ t _ _ ih =>
      refine ⟨ih.1, fun u hu => ih.2 u ?_⟩
      exact List.mem_append.mpr ((List.mem_append.mp hu).imp_right (List.mem_cons_of_mem t))

/-! ## Single use -/

/-- No two transactions of a list use the same resource. -/
def UsedOnce (uses : τ → χ → Prop) (ts : List τ) : Prop :=
  ts.Pairwise fun t u => ∀ x, uses t x → ¬ uses u x

/-- What holds of a system in which no resource is used twice: the used ones are
spent, and no transaction in flight has passed the check for one of them. -/
structure Exhausted (accepts uses : τ → χ → Prop) (spent : χ → σ → Prop) (sys : System σ τ) :
    Prop where
  once : UsedOnce uses sys.committed
  spent : ∀ u ∈ sys.committed, ∀ x, uses u x → spent x sys.db
  nobody : ∀ u ∈ sys.committed, ∀ x, uses u x → ∀ t ∈ sys.inFlight, ¬ accepts t x

/-- **Single use.**  When a use spends its resource, what is spent stays spent and
is not accepted any more, and nobody else who was accepted is in flight when a
use commits, then nothing is used twice. -/
theorem Interleaving.usedOnce {accepts uses : τ → χ → Prop} {spent : χ → σ → Prop}
    (haccepts : ∀ t x, uses t x → accepts t x)
    (hrefuses : ∀ t x, accepts t x → ¬ spent x (reads t))
    (hspends : ∀ t x, uses t x → ∀ db db', Relational.commit (writes t) db = some db' → spent x db')
    (hkeeps : ∀ db before t after committed,
      Interleaving reads writes begins ends start ⟨db, before ++ t :: after, committed⟩ →
      ∀ u ∈ committed, ∀ x, uses u x → ∀ db', Relational.commit (writes t) db = some db' →
      spent x db → spent x db')
    (halone : ∀ others t, ends others t → ∀ x, accepts t x → ∀ u ∈ others, ¬ accepts u x)
    (run : Interleaving reads writes begins ends start sys) : UsedOnce uses sys.committed := by
  suffices Exhausted accepts uses spent sys from this.once
  induction run with
  | start => exact ⟨.nil, by simp, by simp⟩
  | read _ t hreads _ ih =>
      refine ⟨ih.once, ih.spent, fun u hu x hx t' ht' => ?_⟩
      rcases List.mem_cons.mp ht' with rfl | ht'
      · intro haccepted
        -- what has been used is spent in the state it reads
        refine hrefuses _ x haccepted ?_
        rw [hreads]
        exact ih.spent u hu x hx
      · exact ih.nobody u hu x hx t' ht'
  | @commit db db' before after committed t init hends hcommit ih =>
      have hothers : ∀ u ∈ committed, ∀ x, uses u x → ¬ accepts t x := fun u hu x hx =>
        ih.nobody u hu x hx t (List.mem_append_right _ (List.mem_cons_self ..))
      constructor
      case once =>
        -- had `u` used `x`, then `t` would not have passed the check on it
        refine List.pairwise_cons.mpr ⟨fun u hu x hx hux => ?_, ih.once⟩
        exact hothers u hu x hux (haccepts t x hx)
      case spent =>
        intro u hu x hx
        rcases List.mem_cons.mp hu with rfl | hu
        · exact hspends _ x hx db db' hcommit
        · exact hkeeps _ _ _ _ _ init u hu x hx db' hcommit (ih.spent u hu x hx)
      case nobody =>
        intro u hu x hx t' ht'
        rcases List.mem_cons.mp hu with rfl | hu
        · exact halone _ _ hends x (haccepts _ x hx) t' ht'
        · refine ih.nobody u hu x hx t' ?_
          exact List.mem_append.mpr ((List.mem_append.mp ht').imp_right (List.mem_cons_of_mem t))
  | @abort db before after committed t _ _ ih =>
      refine ⟨ih.once, ih.spent, fun u hu x hx t' ht' => ih.nobody u hu x hx t' ?_⟩
      exact List.mem_append.mpr ((List.mem_append.mp ht').imp_right (List.mem_cons_of_mem t))

end Relational
