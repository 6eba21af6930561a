import RbaIdp.Relational.Program

/-!
# Why a program raises

`refusal m t` is the exception `m` raises when started in `t`, if it raises one.
The rules rewrite the refusal of a program into a cascade of the tests it makes,
in the order it makes them: what is left of a program is a decision table.
-/

namespace Relational

namespace Program

variable {σ ω χ ε : Type*} [Statement σ ω] {α β γ : Type}

/-- The exception of a result. -/
def refusalOf (r : Except (Failure ε) α) : Option (Failure ε) :=
  match r with
  | .ok _ => none
  | .error e => some e

/-- Why a program raises, when it does. -/
def refusal (m : Program σ ω χ ε α) (t : Trace σ ω χ) : Option (Failure ε) :=
  refusalOf (m.run t).1

variable {t : Trace σ ω χ}

@[simp] theorem refusal_pure (a : α) : refusal (pure a : Program σ ω χ ε α) t = none := rfl

@[simp] theorem refusal_raise (e : ε) :
    refusal (raise e : Program σ ω χ ε α) t = some (.raised e) := rfl

@[simp] theorem refusal_read (f : σ → α) : refusal (read f : Program σ ω χ ε α) t = none := rfl

@[simp] theorem refusal_require (o : Option α) (e : ε) :
    refusal (require o e : Program σ ω χ ε α) t = if o.isSome then none else some (.raised e) := by
  cases o <;> rfl

theorem refusal_bind (m : Program σ ω χ ε α) (f : α → Program σ ω χ ε β) :
    refusal (m >>= f) t =
      match m.run t with
      | (.ok a, t') => refusal (f a) t'
      | (.error e, _) => some e := by
  unfold refusal
  rw [run_bind]
  rcases m.run t with ⟨e | a, t'⟩ <;> rfl

/-- A program that cannot raise is not refused. -/
theorem refusal_of_wp {m : Program σ ω χ ε α} (h : m.wp (fun _ _ => True) (fun _ => False) t) :
    refusal m t = none := by
  unfold refusal
  rcases hrun : m.run t with ⟨e | a, t'⟩
  · exact (wp_of_error h hrun).elim
  · rfl

theorem refusal_bind_pure (m : Program σ ω χ ε α) (f : α → β) :
    refusal (m >>= fun a => pure (f a)) t = refusal m t := by
  rw [refusal_bind, refusal]
  rcases m.run t with ⟨e | a, t'⟩ <;> rfl

@[simp] theorem refusal_bind_bind (m : Program σ ω χ ε α) (f : α → Program σ ω χ ε β)
    (g : β → Program σ ω χ ε γ) :
    refusal (m >>= f >>= g) t = refusal (m >>= fun a => f a >>= g) t := by
  simp only [refusal_bind, run_bind]
  rcases m.run t with ⟨e | a, t'⟩ <;> rfl

@[simp] theorem refusal_transaction (m : Program σ ω χ ε α) :
    refusal (transaction m) t = refusal m t := by
  simp only [refusal, transaction]
  rcases m.run t with ⟨e | a, t'⟩ <;> rfl

@[simp] theorem refusal_read_bind (f : σ → α) (g : α → Program σ ω χ ε β) :
    refusal (read f >>= g) t = refusal (g (f t.db)) t := rfl

@[simp] theorem refusal_require_bind (o : Option α) (e : ε) (g : α → Program σ ω χ ε β) :
    refusal (require o e >>= g) t = o.elim (some (.raised e)) fun a => refusal (g a) t := by
  cases o <;> rfl

@[simp] theorem refusal_raiseIf_bind (c : Prop) [Decidable c] (e : ε)
    (g : Unit → Program σ ω χ ε β) :
    refusal (raiseIf c e >>= g) t = if c then some (.raised e) else refusal (g ()) t := by
  by_cases h : c
  · rw [if_pos h, raiseIf, if_pos h]
    rfl
  · rw [if_neg h, raiseIf, if_neg h]
    rfl

/-- A statement whose refusal is turned into an exception. -/
@[simp] theorem refusal_onIntegrity_bind (w : ω) (e : ε) (g : Unit → Program σ ω χ ε β) :
    refusal (onIntegrity (execute w) e >>= g) t =
      if Statement.violates w t.db then some (.raised e) else refusal (g ()) (t.exec w) := by
  rw [refusal_bind]
  by_cases h : Statement.violates w t.db = true
  · simp [onIntegrity, execute, h]
  · simp [onIntegrity, execute, h]

end Program

end Relational
