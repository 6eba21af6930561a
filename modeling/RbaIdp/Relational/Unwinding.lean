import Mathlib.Data.List.Basic

/-!
# Unwinding

A system serves inputs one at a time, each in the state the earlier ones led to.  Some
of the inputs are an observer's; which ones may depend on the states they meet.

A run with all inputs is compared with the run of the observer's inputs alone.  If a
relation between the states of the two is kept by the observer's inputs, which are
answered alike in related states, and by everybody else's, of which the second run
knows nothing, then the observer gets the same answers in both (`answers_alone`).
-/

namespace Relational

variable {σ ι β : Type*} (step : σ → ι → σ)

/-- Inputs served from a state, latest first: each with the state it meets, and the
state they lead to. -/
def trail (start : σ) : List ι → List (σ × ι) × σ
  | [] => ([], start)
  | i :: earlier =>
      (((trail start earlier).2, i) :: (trail start earlier).1, step (trail start earlier).2 i)

variable (own : σ → ι → Bool)

/-- The inputs that are the observer's, in the states they meet. -/
def alone (start : σ) (inputs : List ι) : List ι :=
  ((trail step start inputs).1.filter fun e => own e.1 e.2).map Prod.snd

variable {step own} {start start' : σ} {R : σ → σ → Prop} {out : σ → ι → β}

theorem map_snd_trail (start : σ) (inputs : List ι) :
    (trail step start inputs).1.map Prod.snd = inputs := by
  induction inputs with
  | nil => rfl
  | cons i earlier ih => rw [trail, List.map_cons, ih]

/-- The observer's inputs are some of them. -/
theorem alone_sublist (start : σ) (inputs : List ι) :
    (alone step own start inputs).Sublist inputs := by
  have hsub := (List.filter_sublist (p := fun e => own e.1 e.2)
    (l := (trail step start inputs).1)).map Prod.snd
  rwa [map_snd_trail] at hsub

theorem alone_cons (start : σ) (i : ι) (earlier : List ι) :
    alone step own start (i :: earlier) =
      if own (trail step start earlier).2 i then i :: alone step own start earlier
      else alone step own start earlier := by
  unfold alone
  rw [trail, List.filter_cons]
  split
  · rw [List.map_cons]
  · rfl

/-- **Unwinding.**  The observer's inputs are answered as if nobody else were there. -/
theorem answers_alone (inputs : List ι) (hstart : R start start')
    (hown : ∀ s s' i, (s, i) ∈ (trail step start inputs).1 →
      (s', i) ∈ (trail step start' (alone step own start inputs)).1 → own s i = true → R s s' →
      out s i = out s' i ∧ R (step s i) (step s' i))
    (hother : ∀ s s' i, (s, i) ∈ (trail step start inputs).1 → own s i = false → R s s' →
      R (step s i) s') :
    R (trail step start inputs).2 (trail step start' (alone step own start inputs)).2 ∧
      ((trail step start inputs).1.filter fun e => own e.1 e.2).map (fun e => out e.1 e.2) =
        (trail step start' (alone step own start inputs)).1.map fun e => out e.1 e.2 := by
  induction inputs with
  | nil => exact ⟨hstart, rfl⟩
  | cons i earlier ih =>
      rw [alone_cons] at hown ⊢
      have hearlier : ∀ s s' j, (s, j) ∈ (trail step start earlier).1 → own s j = false → R s s' →
          R (step s j) s' := fun s s' j hj => hother s s' j (List.mem_cons_of_mem _ hj)
      have hi : ((trail step start earlier).2, i) ∈ (trail step start (i :: earlier)).1 :=
        List.mem_cons_self ..
      by_cases h : own (trail step start earlier).2 i = true
      · rw [if_pos h] at hown ⊢
        obtain ⟨hrelated, hsame⟩ := ih (fun s s' j hj hj' => hown s s' j
          (List.mem_cons_of_mem _ hj) (List.mem_cons_of_mem _ hj')) hearlier
        obtain ⟨hanswer, hafter⟩ := hown _ _ i hi (List.mem_cons_self ..) h hrelated
        refine ⟨hafter, ?_⟩
        simp only [trail, List.filter_cons, h, if_true, List.map_cons, hsame, hanswer]
      · rw [if_neg h] at hown ⊢
        obtain ⟨hrelated, hsame⟩ := ih (fun s s' j hj hj' => hown s s' j
          (List.mem_cons_of_mem _ hj) hj') hearlier
        have hnot : own (trail step start earlier).2 i = false := Bool.eq_false_iff.mpr h
        refine ⟨hother _ _ i hi hnot hrelated, ?_⟩
        simp only [trail, List.filter_cons, hnot, Bool.false_eq_true, if_false, hsame]

end Relational
