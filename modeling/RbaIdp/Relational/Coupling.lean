import RbaIdp.Relational.Program

/-!
# Two runs of one program

`Coupled R m Q`: started from two states related by `R`, the program answers the
same in both, the same value or the same exception, and two states it returns in
are related by `Q`.  A program that is coupled cannot tell related states apart.

`Relates R m m' V` compares two programs, which keep `R` at every step and return
values related by `V`; `Keeps R m` is the case of one program, and of equal values.
Its rules follow the constructors of programs and need no assertion in between.

`CallsIn C m` says of one run that every call the program makes is in `C`.
-/

namespace Relational

namespace Program

universe v

variable {σ ω χ ε : Type*} [Statement σ ω] {α β : Type v}

/-! ## Coupled runs -/

/-- What is asked of two results. -/
def Alike (Q : α → σ → σ → Prop) :
    Except (Failure ε) α × Trace σ ω χ → Except (Failure ε) α × Trace σ ω χ → Prop
  | (.ok a, t), (.ok a', t') => a = a' ∧ Q a t.db t'.db
  | (.error e, _), (.error e', _) => e = e'
  | _, _ => False

def Coupled (R : σ → σ → Prop) (m : Program σ ω χ ε α) (Q : α → σ → σ → Prop) : Prop :=
  ∀ t t', R t.db t'.db → Alike Q (m.run t) (m.run t')

attribute [local simp] Alike

variable {R R' : σ → σ → Prop} {Q Q' : α → σ → σ → Prop}

theorem Coupled.answer {m : Program σ ω χ ε α} (h : Coupled R m Q) {t t' : Trace σ ω χ}
    (ht : R t.db t'.db) : (m.run t).1 = (m.run t').1 := by
  have halike := h t t' ht
  rcases hrun : m.run t with ⟨e | a, u⟩ <;> rcases hrun' : m.run t' with ⟨e' | a', u'⟩ <;>
    simp only [hrun, hrun', Alike] at halike
  · rw [halike]
  · rw [halike.1]

theorem Coupled.after {m : Program σ ω χ ε α} (h : Coupled R m Q) {t t' u : Trace σ ω χ} {a : α}
    (ht : R t.db t'.db) (hrun : m.run t = (.ok a, u)) : Q a u.db (m.run t').2.db := by
  have halike := h t t' ht
  rcases hrun' : m.run t' with ⟨e' | a', u'⟩ <;> simp only [hrun, hrun', Alike] at halike
  exact halike.2

theorem Coupled.mono {m : Program σ ω χ ε α} (h : Coupled R m Q)
    (hR : ∀ db db', R' db db' → R db db') (hQ : ∀ a db db', Q a db db' → Q' a db db') :
    Coupled R' m Q' := by
  intro t t' ht
  have halike := h t t' (hR _ _ ht)
  rcases hrun : m.run t with ⟨e | a, u⟩ <;> rcases hrun' : m.run t' with ⟨e' | a', u'⟩ <;>
    simp only [hrun, hrun', Alike] at halike ⊢
  · exact halike
  · exact halike.imp_right (hQ a _ _)

theorem coupled_pure {a : α} (h : ∀ db db', R db db' → Q a db db') :
    Coupled R (pure a : Program σ ω χ ε α) Q := fun _ _ ht => ⟨rfl, h _ _ ht⟩

theorem coupled_raise {e : ε} : Coupled R (raise e : Program σ ω χ ε α) Q := fun _ _ _ => rfl

/-- The rule for sequences: a relation that holds between two programs. -/
theorem coupled_bind {m : Program σ ω χ ε α} {f : α → Program σ ω χ ε β} {I : α → σ → σ → Prop}
    {Q : β → σ → σ → Prop} (hm : Coupled R m I) (hf : ∀ a, Coupled (I a) (f a) Q) :
    Coupled R (m >>= f) Q := by
  intro t t' ht
  have halike := hm t t' ht
  rw [run_bind, run_bind]
  rcases hrun : m.run t with ⟨e | a, u⟩ <;> rcases hrun' : m.run t' with ⟨e' | a', u'⟩ <;>
    simp only [hrun, hrun', Alike] at halike ⊢
  · exact halike
  · obtain ⟨rfl, hI⟩ := halike
    exact hf a u u' hI

/-- Reading what the relation makes equal. -/
theorem coupled_read {f : σ → α} (h : ∀ db db', R db db' → f db = f db' ∧ Q (f db) db db') :
    Coupled R (read f : Program σ ω χ ε α) Q := fun _ _ ht => h _ _ ht

/-- A statement that both states accept, or both refuse. -/
theorem coupled_execute {w : ω} {Q : Unit → σ → σ → Prop}
    (h : ∀ db db', R db db' → Statement.violates w db = Statement.violates w db' ∧
      (Statement.violates w db = false →
        Q () (Statement.effect w db) (Statement.effect w db'))) :
    Coupled R (execute w : Program σ ω χ ε Unit) Q := by
  intro t t' ht
  obtain ⟨hsame, heffect⟩ := h _ _ ht
  cases hviolates : Statement.violates w t.db with
  | true => simp [execute, Alike, ← hsame, hviolates]
  | false => simpa [execute, Alike, ← hsame, hviolates] using heffect hviolates

theorem coupled_call {c : χ} {Q : Unit → σ → σ → Prop} (h : ∀ db db', R db db' → Q () db db') :
    Coupled R (call c : Program σ ω χ ε Unit) Q := fun _ _ ht => ⟨rfl, h _ _ ht⟩

theorem coupled_transaction {m : Program σ ω χ ε α} (h : Coupled R m Q) :
    Coupled R (transaction m) Q := by
  intro t t' ht
  have halike := h t t' ht
  simp only [transaction]
  rcases hrun : m.run t with ⟨e | a, u⟩ <;> rcases hrun' : m.run t' with ⟨e' | a', u'⟩ <;>
    simp only [hrun, hrun', Alike] at halike ⊢
  all_goals exact halike

theorem coupled_onIntegrity {m : Program σ ω χ ε α} {e : ε} (h : Coupled R m Q) :
    Coupled R (onIntegrity m e) Q := by
  intro t t' ht
  have halike := h t t' ht
  simp only [onIntegrity]
  rcases hrun : m.run t with ⟨(_ | e) | a, u⟩ <;>
    rcases hrun' : m.run t' with ⟨(_ | e') | a', u'⟩ <;>
    simp only [hrun, hrun', Alike, reduceCtorEq] at halike ⊢
  · exact halike
  · exact halike

theorem coupled_require {o : Option α} {e : ε}
    (h : ∀ a, o = some a → ∀ db db', R db db' → Q a db db') :
    Coupled R (require o e : Program σ ω χ ε α) Q := by
  cases o with
  | none => exact coupled_raise
  | some a => exact coupled_pure (h a rfl)

theorem coupled_raiseIf {c : Prop} [Decidable c] {e : ε} {Q : Unit → σ → σ → Prop}
    (h : ¬ c → ∀ db db', R db db' → Q () db db') :
    Coupled R (raiseIf c e : Program σ ω χ ε Unit) Q := by
  unfold raiseIf
  split
  · exact coupled_raise
  · next hc => exact coupled_pure (h hc)

theorem coupled_when {c : Prop} [Decidable c] {m : Program σ ω χ ε Unit}
    {Q : Unit → σ → σ → Prop} (hm : c → Coupled R m Q)
    (hnot : ¬ c → ∀ db db', R db db' → Q () db db') : Coupled R (when c m) Q := by
  unfold when
  split
  · next hc => exact hm hc
  · next hc => exact coupled_pure (hnot hc)

theorem coupled_ifSome {o : Option α} {f : α → Program σ ω χ ε Unit} {Q : Unit → σ → σ → Prop}
    (hf : ∀ a, o = some a → Coupled R (f a) Q) (hnone : ∀ db db', R db db' → Q () db db') :
    Coupled R (ifSome o f) Q := by
  cases o with
  | none => exact coupled_pure hnone
  | some a => exact hf a rfl

/-- The rule for loops: a relation every iteration keeps. -/
theorem coupled_forEach {xs : List α} {f : α → Program σ ω χ ε Unit}
    (hf : ∀ a ∈ xs, Coupled R (f a) fun _ => R) : Coupled R (forEach xs f) fun _ => R := by
  induction xs with
  | nil => exact coupled_pure fun _ _ h => h
  | cons a rest ih =>
      exact coupled_bind (hf a (List.mem_cons_self ..)) fun _ =>
        ih fun b hb => hf b (List.mem_cons_of_mem _ hb)

/-! ## Two programs in step -/

/-- What is asked of two results when one relation is kept throughout: values
related by `V`, or the same exception. -/
def InStep (R : σ → σ → Prop) (V : α → β → Prop) :
    Except (Failure ε) α × Trace σ ω χ → Except (Failure ε) β × Trace σ ω χ → Prop
  | (.ok a, t), (.ok b, t') => V a b ∧ R t.db t'.db
  | (.error e, t), (.error e', t') => e = e' ∧ R t.db t'.db
  | _, _ => False

attribute [local simp] InStep

def Relates (R : σ → σ → Prop) (m : Program σ ω χ ε α) (m' : Program σ ω χ ε β)
    (V : α → β → Prop) : Prop :=
  ∀ t t', R t.db t'.db → InStep R V (m.run t) (m'.run t')

variable {γ δ : Type v} {V : α → β → Prop} {W : γ → δ → Prop}

theorem Relates.mono {m : Program σ ω χ ε α} {m' : Program σ ω χ ε β} {V' : α → β → Prop}
    (h : Relates R m m' V) (hV : ∀ a b, V a b → V' a b) : Relates R m m' V' := by
  intro t t' ht
  have hstep := h t t' ht
  rcases hrun : m.run t with ⟨e | a, u⟩ <;> rcases hrun' : m'.run t' with ⟨e' | b, u'⟩ <;>
    simp only [hrun, hrun', InStep] at hstep ⊢
  · exact hstep
  · exact hstep.imp_left (hV a b)

theorem Relates.db {m : Program σ ω χ ε α} {m' : Program σ ω χ ε β} (h : Relates R m m' V)
    {t t' : Trace σ ω χ} (ht : R t.db t'.db) : R (m.run t).2.db (m'.run t').2.db := by
  have hstep := h t t' ht
  rcases hrun : m.run t with ⟨e | a, u⟩ <;> rcases hrun' : m'.run t' with ⟨e' | b, u'⟩ <;>
    simp only [hrun, hrun', InStep] at hstep
  · exact hstep.2
  · exact hstep.2

theorem Relates.answer {m m' : Program σ ω χ ε α} (h : Relates R m m' Eq)
    {t t' : Trace σ ω χ} (ht : R t.db t'.db) : (m.run t).1 = (m'.run t').1 := by
  have hstep := h t t' ht
  rcases hrun : m.run t with ⟨e | a, u⟩ <;> rcases hrun' : m'.run t' with ⟨e' | b, u'⟩ <;>
    simp only [hrun, hrun', InStep] at hstep
  · rw [hstep.1]
  · rw [hstep.1]

theorem relates_pure {a : α} {b : β} (h : V a b) :
    Relates R (pure a : Program σ ω χ ε α) (pure b) V := fun _ _ ht => ⟨h, ht⟩

theorem relates_raise {e : ε} :
    Relates R (raise e : Program σ ω χ ε α) (raise e : Program σ ω χ ε β) V :=
  fun _ _ ht => ⟨rfl, ht⟩

/-- The rule for sequences: values related by `W` in between. -/
theorem relates_bind {m : Program σ ω χ ε γ} {m' : Program σ ω χ ε δ}
    {f : γ → Program σ ω χ ε α} {f' : δ → Program σ ω χ ε β} (hm : Relates R m m' W)
    (hf : ∀ c d, W c d → Relates R (f c) (f' d) V) : Relates R (m >>= f) (m' >>= f') V := by
  intro t t' ht
  have hstep := hm t t' ht
  rw [run_bind, run_bind]
  rcases hrun : m.run t with ⟨e | c, u⟩ <;> rcases hrun' : m'.run t' with ⟨e' | d, u'⟩ <;>
    simp only [hrun, hrun', InStep] at hstep ⊢
  · exact hstep
  · exact hf c d hstep.1 u u' hstep.2

theorem relates_read {f : σ → α} {f' : σ → β} (h : ∀ db db', R db db' → V (f db) (f' db')) :
    Relates R (read f : Program σ ω χ ε α) (read f') V := fun _ _ ht => ⟨h _ _ ht, ht⟩

/-- Two statements, accepted or refused together. -/
theorem relates_execute {w w' : ω} {V : Unit → Unit → Prop} (hV : V () ())
    (h : ∀ db db', R db db' → Statement.violates w db = Statement.violates w' db' ∧
      R (Statement.effect w db) (Statement.effect w' db')) :
    Relates R (execute w : Program σ ω χ ε Unit) (execute w') V := by
  intro t t' ht
  obtain ⟨hsame, heffect⟩ := h _ _ ht
  cases hviolates : Statement.violates w t.db with
  | true => simpa [execute, InStep, ← hsame, hviolates] using ht
  | false => simpa [execute, InStep, ← hsame, hviolates] using ⟨hV, heffect⟩

theorem relates_call {c c' : χ} {V : Unit → Unit → Prop} (hV : V () ()) :
    Relates R (call c : Program σ ω χ ε Unit) (call c') V := fun _ _ ht => ⟨hV, ht⟩

theorem relates_transaction {m : Program σ ω χ ε α} {m' : Program σ ω χ ε β}
    (h : Relates R m m' V) : Relates R (transaction m) (transaction m') V := by
  intro t t' ht
  have hstep := h t t' ht
  simp only [transaction]
  rcases hrun : m.run t with ⟨e | a, u⟩ <;> rcases hrun' : m'.run t' with ⟨e' | b, u'⟩ <;>
    simp only [hrun, hrun', InStep] at hstep ⊢
  · exact ⟨hstep.1, ht⟩
  · exact hstep

theorem relates_onIntegrity {m : Program σ ω χ ε α} {m' : Program σ ω χ ε β} {e : ε}
    (h : Relates R m m' V) : Relates R (onIntegrity m e) (onIntegrity m' e) V := by
  intro t t' ht
  have hstep := h t t' ht
  simp only [onIntegrity]
  rcases hrun : m.run t with ⟨(_ | e) | a, u⟩ <;>
    rcases hrun' : m'.run t' with ⟨(_ | e') | b, u'⟩ <;>
    simp only [hrun, hrun', InStep, reduceCtorEq, false_and] at hstep ⊢
  · exact ⟨trivial, hstep.2⟩
  · exact hstep
  · exact hstep

theorem relates_require {o : Option α} {o' : Option β} {e : ε} (h : Option.Rel V o o') :
    Relates R (require o e : Program σ ω χ ε α) (require o' e) V := by
  cases h with
  | none => exact relates_raise
  | some h => exact relates_pure h

theorem relates_raiseIf {c c' : Prop} [Decidable c] [Decidable c'] {e : ε}
    {V : Unit → Unit → Prop} (hc : c ↔ c') (hV : V () ()) :
    Relates R (raiseIf c e : Program σ ω χ ε Unit) (raiseIf c' e) V := by
  by_cases h : c
  · simpa [raiseIf, h, hc.mp h] using relates_raise
  · simpa [raiseIf, h, mt hc.mpr h] using relates_pure hV

theorem relates_when {c : Prop} [Decidable c] {m m' : Program σ ω χ ε Unit}
    {V : Unit → Unit → Prop} (hm : Relates R m m' V) (hV : V () ()) :
    Relates R (when c m) (when c m') V := by
  unfold when
  split
  · exact hm
  · exact relates_pure hV

/-! ## Programs that keep a relation -/

def Keeps (R : σ → σ → Prop) (m : Program σ ω χ ε α) : Prop := Relates R m m Eq

theorem keeps_pure {a : α} : Keeps R (pure a : Program σ ω χ ε α) := relates_pure rfl

theorem keeps_raise {e : ε} : Keeps R (raise e : Program σ ω χ ε α) := relates_raise

theorem keeps_bind {m : Program σ ω χ ε α} {f : α → Program σ ω χ ε β} (hm : Keeps R m)
    (hf : ∀ a, Keeps R (f a)) : Keeps R (m >>= f) :=
  relates_bind hm fun a _ h => h ▸ hf a

theorem keeps_read {f : σ → α} (h : ∀ db db', R db db' → f db = f db') :
    Keeps R (read f : Program σ ω χ ε α) :=
  relates_read h

theorem keeps_execute {w : ω}
    (h : ∀ db db', R db db' → Statement.violates w db = Statement.violates w db' ∧
      R (Statement.effect w db) (Statement.effect w db')) :
    Keeps R (execute w : Program σ ω χ ε Unit) :=
  relates_execute rfl h

theorem keeps_call {c : χ} : Keeps R (call c : Program σ ω χ ε Unit) := relates_call rfl

theorem keeps_transaction {m : Program σ ω χ ε α} (h : Keeps R m) : Keeps R (transaction m) :=
  relates_transaction h

theorem keeps_onIntegrity {m : Program σ ω χ ε α} {e : ε} (h : Keeps R m) :
    Keeps R (onIntegrity m e) :=
  relates_onIntegrity h

theorem keeps_require {o : Option α} {e : ε} : Keeps R (require o e : Program σ ω χ ε α) := by
  cases o with
  | none => exact keeps_raise
  | some a => exact keeps_pure

theorem keeps_raiseIf {c : Prop} [Decidable c] {e : ε} :
    Keeps R (raiseIf c e : Program σ ω χ ε Unit) :=
  relates_raiseIf Iff.rfl rfl

theorem keeps_attempt {m : Program σ ω χ ε Unit} (h : Keeps R m) : Keeps R (attempt m) :=
  fun _ _ ht => ⟨rfl, h.db ht⟩

theorem keeps_when {c : Prop} [Decidable c] {m : Program σ ω χ ε Unit} (hm : Keeps R m) :
    Keeps R (when c m) := by
  unfold when
  split
  · exact hm
  · exact keeps_pure

theorem keeps_ifSome {o : Option α} {f : α → Program σ ω χ ε Unit} (hf : ∀ a, Keeps R (f a)) :
    Keeps R (ifSome o f) := by
  cases o with
  | none => exact keeps_pure
  | some a => exact hf a

theorem keeps_forEach {xs : List α} {f : α → Program σ ω χ ε Unit} (hf : ∀ a, Keeps R (f a)) :
    Keeps R (forEach xs f) := by
  induction xs with
  | nil => exact keeps_pure
  | cons a rest ih => exact keeps_bind (hf a) fun _ => ih

/-- Only the states of two runs that return are related in a coupled program. -/
theorem Keeps.coupled {m : Program σ ω χ ε α} (h : Keeps R m) : Coupled R m fun _ => R := by
  intro t t' ht
  have hstep := h t t' ht
  rcases hrun : m.run t with ⟨e | a, u⟩ <;> rcases hrun' : m.run t' with ⟨e' | a', u'⟩ <;>
    simp only [hrun, hrun', InStep] at hstep
  · exact hstep.1
  · exact hstep

/-! ## The calls a program makes -/

variable {C C' : χ → Prop}

def CallsIn (C : χ → Prop) (m : Program σ ω χ ε α) : Prop :=
  ∀ t, ∃ cs, (m.run t).2.calls = t.calls ++ cs ∧ ∀ c ∈ cs, C c

theorem CallsIn.mono {m : Program σ ω χ ε α} (h : CallsIn C m) (hC : ∀ c, C c → C' c) :
    CallsIn C' m := fun t =>
  let ⟨cs, hcs, hin⟩ := h t
  ⟨cs, hcs, fun c hc => hC c (hin c hc)⟩

theorem callsIn_pure {a : α} : CallsIn C (pure a : Program σ ω χ ε α) :=
  fun _ => ⟨[], by simp⟩

theorem callsIn_raise {e : ε} : CallsIn C (raise e : Program σ ω χ ε α) :=
  fun _ => ⟨[], by simp⟩

theorem callsIn_read {f : σ → α} : CallsIn C (read f : Program σ ω χ ε α) :=
  fun _ => ⟨[], by simp⟩

theorem callsIn_execute {w : ω} : CallsIn C (execute w : Program σ ω χ ε Unit) := by
  refine fun t => ⟨[], ?_⟩
  by_cases h : Statement.violates w t.db = true <;> simp [execute, h]

theorem callsIn_call {c : χ} (h : C c) :
    CallsIn C (call c : Program σ ω χ ε Unit) :=
  fun _ => ⟨[c], rfl, by simpa using h⟩

/-- The rule for sequences, for the values the first program returns. -/
theorem callsIn_bind_of_run {m : Program σ ω χ ε α} {f : α → Program σ ω χ ε β}
    (hm : CallsIn C m) (hf : ∀ a t t', m.run t = (.ok a, t') → CallsIn C (f a)) :
    CallsIn C (m >>= f) := by
  intro t
  obtain ⟨cs, hcs, hin⟩ := hm t
  rw [run_bind]
  rcases hrun : m.run t with ⟨e | a, u⟩ <;> rw [hrun] at hcs
  · exact ⟨cs, hcs, hin⟩
  · obtain ⟨cs', hcs', hin'⟩ := hf a t u hrun u
    refine ⟨cs ++ cs', by rw [hcs', hcs, List.append_assoc], fun c hc => ?_⟩
    exact (List.mem_append.mp hc).elim (hin c) (hin' c)

theorem callsIn_bind {m : Program σ ω χ ε α} {f : α → Program σ ω χ ε β}
    (hm : CallsIn C m) (hf : ∀ a, CallsIn C (f a)) : CallsIn C (m >>= f) :=
  callsIn_bind_of_run hm fun a _ _ _ => hf a

theorem callsIn_transaction {m : Program σ ω χ ε α} (h : CallsIn C m) :
    CallsIn C (transaction m) := by
  intro t
  obtain ⟨cs, hcs, hin⟩ := h t
  rcases hrun : m.run t with ⟨e | a, u⟩ <;> rw [hrun] at hcs <;>
    exact ⟨cs, by simpa [transaction, hrun] using hcs, hin⟩

theorem callsIn_onIntegrity {m : Program σ ω χ ε α} {e : ε} (h : CallsIn C m) :
    CallsIn C (onIntegrity m e) := by
  intro t
  obtain ⟨cs, hcs, hin⟩ := h t
  rcases hrun : m.run t with ⟨(_ | e) | a, u⟩ <;> rw [hrun] at hcs <;>
    exact ⟨cs, by simpa [onIntegrity, hrun] using hcs, hin⟩

theorem callsIn_attempt {m : Program σ ω χ ε Unit} (h : CallsIn C m) :
    CallsIn C (attempt m) := h

theorem callsIn_require {o : Option α} {e : ε} :
    CallsIn C (require o e : Program σ ω χ ε α) := by
  cases o with
  | none => exact callsIn_raise
  | some a => exact callsIn_pure

theorem callsIn_raiseIf {c : Prop} [Decidable c] {e : ε} :
    CallsIn C (raiseIf c e : Program σ ω χ ε Unit) := by
  unfold raiseIf
  split
  · exact callsIn_raise
  · exact callsIn_pure

theorem callsIn_when {c : Prop} [Decidable c] {m : Program σ ω χ ε Unit}
    (hm : CallsIn C m) : CallsIn C (when c m) := by
  unfold when
  split
  · exact hm
  · exact callsIn_pure

theorem callsIn_ifSome {o : Option α} {f : α → Program σ ω χ ε Unit}
    (hf : ∀ a, CallsIn C (f a)) : CallsIn C (ifSome o f) := by
  cases o with
  | none => exact callsIn_pure
  | some a => exact hf a

theorem callsIn_forEach {xs : List α} {f : α → Program σ ω χ ε Unit}
    (hf : ∀ a, CallsIn C (f a)) : CallsIn C (forEach xs f) := by
  induction xs with
  | nil => exact callsIn_pure
  | cons a rest ih => exact callsIn_bind (hf a) fun _ => ih

end Program

end Relational
