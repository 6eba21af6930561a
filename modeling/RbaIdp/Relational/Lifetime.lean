import RbaIdp.Relational.Program

/-!
# Exactly how long something lasts

Something is `alive` in a state or it is not, and some statements end it.  If a
statement leaves it alive exactly when it was alive and the statement does not end
it, then so does a list of them: nothing else ends it, and nothing revives it.
-/

namespace Relational

variable {σ ω : Type*} [Statement σ ω]

/-- In the states where `I` holds, a statement leaves alive what was alive and what
it does not end, and nothing else, and `I` goes on to hold. -/
def Lasts (I alive : σ → Prop) (ends : ω → Prop) (w : ω) : Prop :=
  ∀ db, I db → Statement.violates w db = false →
    (alive (Statement.effect w db) ↔ alive db ∧ ¬ ends w) ∧ I (Statement.effect w db)

variable {I alive : σ → Prop} {ends : ω → Prop} {ws : List ω} {db db' : σ}

theorem alive_of_commit (hws : ∀ w ∈ ws, Lasts I alive ends w)
    (hcommit : commit ws db = some db') (hdb : I db) :
    (alive db' ↔ alive db ∧ ∀ w ∈ ws, ¬ ends w) ∧ I db' := by
  induction ws generalizing db with
  | nil =>
      cases hcommit
      exact ⟨by simp, hdb⟩
  | cons w rest ih =>
      obtain ⟨haccepted, hrest⟩ := commit_cons_eq_some.mp hcommit
      obtain ⟨hstep, hmid⟩ := hws w (List.mem_cons_self ..) db hdb haccepted
      obtain ⟨hiff, hend⟩ := ih (fun v hv => hws v (List.mem_cons_of_mem _ hv)) hrest hmid
      refine ⟨?_, hend⟩
      rw [hiff, hstep, List.forall_mem_cons, and_assoc]

end Relational
