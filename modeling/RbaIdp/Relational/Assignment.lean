import Mathlib.Data.List.Basic
import Mathlib.Logic.Function.Basic

/-!
# Keys with one owner

A key has one owner or none.  `reassign` gives an owner the keys of a list, and takes
from it the keys that are not listed.  As long as no listed key is another's, every
owner has the keys of the list it was last given (`Lists.reassign`).
-/

namespace Relational

variable {κ ο : Type*} [DecidableEq κ] [DecidableEq ο] {owner : κ → Option ο} {o other : ο}
  {keys : List κ} {k : κ}

/-- Nobody else has any of the keys. -/
def FreeFor (owner : κ → Option ο) (o : ο) (keys : List κ) : Prop :=
  ∀ k ∈ keys, ∀ other, owner k = some other → other = o

/-- Give an owner the keys of a list, and no others. -/
def reassign (owner : κ → Option ο) (o : ο) (keys : List κ) : κ → Option ο :=
  fun k => if k ∈ keys then some o else (owner k).filter (· ≠ o)

theorem reassign_self : reassign owner o keys k = some o ↔ k ∈ keys := by
  unfold reassign
  split
  · next hk => simp [hk]
  · next hk => simp [hk, Option.filter_eq_some_iff]

/-- The other owners keep what they have. -/
theorem reassign_other (hfree : FreeFor owner o keys) (hne : other ≠ o) :
    reassign owner o keys k = some other ↔ owner k = some other := by
  unfold reassign
  split
  · next hk =>
      rw [Option.some.injEq]
      constructor
      · exact fun heq => absurd heq.symm hne
      · exact fun howner => (hfree k hk other howner).symm
  · next hk => simp [Option.filter_eq_some_iff, hne]

/-- Every owner has the keys of its list. -/
def Lists (owner : κ → Option ο) (lists : ο → List κ) : Prop :=
  ∀ k o, owner k = some o ↔ k ∈ lists o

theorem Lists.reassign {lists : ο → List κ} (h : Lists owner lists)
    (hfree : FreeFor owner o keys) :
    Lists (Relational.reassign owner o keys) (Function.update lists o keys) := by
  intro k other
  by_cases hne : other = o
  · subst hne
    rw [Function.update_self]
    exact reassign_self
  · rw [Function.update_of_ne hne, reassign_other hfree hne]
    exact h k other

end Relational
