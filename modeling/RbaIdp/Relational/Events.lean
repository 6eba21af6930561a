import Mathlib.Data.List.Basic

/-!
# Systems driven by events

A system is a partial function: an event takes a state to the next one, or cannot
take place.  `replay` runs a list of events; `EventRun` is the same as a relation,
with a condition that every event meets in the state it takes place in.  Events are
listed latest first.
-/

namespace Relational

variable {σ ε : Type*} (apply : σ → ε → Option σ)

/-- The state that events lead to. -/
def replay (start : σ) : List ε → Option σ
  | [] => some start
  | event :: earlier => (replay start earlier).bind fun s => apply s event

/-- The states that events meeting a condition lead to. -/
inductive EventRun (P : σ → ε → Prop) (start : σ) : List ε → σ → Prop where
  | nil : EventRun P start [] start
  | cons {events : List ε} {s s' : σ} {event : ε} (init : EventRun P start events s)
      (allowed : P s event) (step : apply s event = some s') :
      EventRun P start (event :: events) s'

/-- The same, checking the condition on the way. -/
def replayIf (P : σ → ε → Prop) [∀ s, DecidablePred (P s)] (start : σ) : List ε → Option σ
  | [] => some start
  | event :: earlier =>
      (replayIf P start earlier).bind fun s => if P s event then apply s event else none

variable {apply} {P : σ → ε → Prop} {start s : σ} {events : List ε}

@[simp] theorem replay_nil : replay apply start [] = some start := rfl

theorem replay_cons {event : ε} :
    replay apply start (event :: events) =
      (replay apply start events).bind fun s => apply s event := rfl

/-- What the events that meet the condition keep holds in every state of a run. -/
theorem EventRun.invariant {I : σ → Prop}
    (hstep : ∀ s event s', I s → P s event → apply s event = some s' → I s')
    (run : EventRun apply P start events s) (hstart : I start) : I s := by
  induction run with
  | nil => exact hstart
  | cons _ allowed step ih => exact hstep _ _ _ ih allowed step

theorem eventRun_of_replayIf [∀ s, DecidablePred (P s)]
    (h : replayIf apply P start events = some s) : EventRun apply P start events s := by
  induction events generalizing s with
  | nil =>
      cases h
      exact .nil
  | cons event earlier ih =>
      obtain ⟨mid, hmid, hstep⟩ := Option.bind_eq_some_iff.mp h
      split at hstep
      · next hallowed => exact (ih hmid).cons hallowed hstep
      · cases hstep

theorem eventRun_of_replay (h : replay apply start events = some s) :
    EventRun apply (fun _ _ => True) start events s := by
  induction events generalizing s with
  | nil =>
      cases h
      exact .nil
  | cons event earlier ih =>
      obtain ⟨mid, hmid, hstep⟩ := Option.bind_eq_some_iff.mp h
      exact (ih hmid).cons trivial hstep

end Relational
