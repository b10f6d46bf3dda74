import Mathlib.Init

/-!
# Runs of interleaved threads

A system of threads is a step function: given an event, which says whose turn it is and
settles what the system leaves open, the next state. A step that has to wait leaves the
state as it is, so every list of events is a possible interleaving.

`run_invariant` puts what every step preserves on the states of every run. Where a fact
needs the steps of the run to meet a condition, `Respects` says that they do. That a goal can
still be reached is shown by steps that lead towards it, `exists_run_of_advances`. That it is
reached whatever the schedule, as long as every thread gets its turn again and again, is shown
by a measure that no step raises, `eventually_of_fair`.
-/

namespace Schedule

variable {σ ε : Type} (step : σ → ε → σ) {state : σ}

/-- The state after a list of events. -/
def run (state : σ) (events : List ε) : σ := events.foldl step state

theorem run_append (state : σ) (front back : List ε) :
    run step state (front ++ back) = run step (run step state front) back := List.foldl_append

/-- Every step of the run is taken in a state in which it is allowed. -/
def Respects (allowed : σ → ε → Prop) : σ → List ε → Prop
  | _, [] => True
  | state, event :: events =>
      allowed state event ∧ Respects allowed (step state event) events

instance decidableRespects (allowed : σ → ε → Prop)
    [∀ state event, Decidable (allowed state event)] :
    ∀ state events, Decidable (Respects step allowed state events)
  | _, [] => isTrue trivial
  | state, event :: events =>
      @instDecidableAnd _ _ _ (decidableRespects allowed (step state event) events)

variable {step} {P : σ → Prop}

/-- What allowed steps preserve holds in every state that they lead to. -/
theorem run_invariant_of_respects {allowed : σ → ε → Prop}
    (keeps : ∀ state event, P state → allowed state event → P (step state event)) (start : P state)
    {events : List ε} (respects : Respects step allowed state events) :
    P (run step state events) := by
  induction events generalizing state with
  | nil => exact start
  | cons event events ih =>
      exact ih (keeps state event start respects.1) respects.2

/-- A condition that allowed steps meet as long as what they preserve holds. -/
theorem respects_of_invariant {allowed allowed' : σ → ε → Prop}
    (keeps : ∀ state event, P state → allowed state event → P (step state event))
    (implies : ∀ state event, P state → allowed state event → allowed' state event)
    (start : P state) {events : List ε} (respects : Respects step allowed state events) :
    Respects step allowed' state events := by
  induction events generalizing state with
  | nil => trivial
  | cons event events ih =>
      exact ⟨implies state event start respects.1,
        ih (keeps state event start respects.1) respects.2⟩

/-- What every step preserves holds in every state of every run. -/
theorem run_invariant (keeps : ∀ state event, P state → P (step state event)) (start : P state)
    (events : List ε) : P (run step state events) := by
  induction events generalizing state with
  | nil => exact start
  | cons event events ih => exact ih (keeps state event start)

/-- If from every state that is no goal yet some allowed step leads to a smaller one, some
allowed run leads to a goal. -/
theorem exists_run_of_advances {α : Type} {less : α → α → Prop} (wellFounded : WellFounded less)
    (measure : σ → α) {allowed : σ → ε → Prop} {goal : σ → Prop}
    (advances : ∀ state, P state → ¬goal state → ∃ event, allowed state event ∧
      P (step state event) ∧ less (measure (step state event)) (measure state)) (start : P state) :
    ∃ events, Respects step allowed state events ∧ goal (run step state events) := by
  generalize size : measure state = value
  induction value using wellFounded.induction generalizing state with
  | _ value ih =>
      by_cases reached : goal state
      · exact ⟨[], trivial, reached⟩
      · obtain ⟨event, fine, kept, smaller⟩ := advances state start reached
        obtain ⟨events, respects, reaches⟩ := ih _ (size ▸ smaller) kept rfl
        exact ⟨event :: events, ⟨fine, respects⟩, reaches⟩

/-! ### Endless schedules -/

/-- The state of an endless run at a time. -/
def trace (step : σ → ε → σ) (state : σ) (schedule : Nat → ε) (time : Nat) : σ :=
  run step state ((List.range time).map schedule)

theorem trace_succ (state : σ) (schedule : Nat → ε) (time : Nat) :
    trace step state schedule (time + 1) =
      step (trace step state schedule time) (schedule time) := by
  rw [trace, List.range_succ, List.map_append, run_append]
  rfl

/-- Let every turn of a thread leave the state alone or make it smaller, and let every state
that is no goal have a thread each turn of which makes it smaller. Then a schedule that
consists of turns and in which every thread has its turn again and again leads to a goal. -/
theorem eventually_of_fair {α τ : Type} {less : α → α → Prop} (wellFounded : WellFounded less)
    (measure : σ → α) (turn : ε → Option τ) {goal : σ → Prop}
    (keeps : ∀ state event, P state → P (step state event))
    (moves : ∀ state event, P state → turn event ≠ none →
      step state event = state ∨ less (measure (step state event)) (measure state))
    (ready : ∀ state, P state → ¬goal state → ∃ thread, ∀ event, turn event = some thread →
      less (measure (step state event)) (measure state)) (start : P state) {schedule : Nat → ε}
    (fine : ∀ time, turn (schedule time) ≠ none)
    (fair : ∀ thread time, ∃ later, time ≤ later ∧ turn (schedule later) = some thread) :
    ∃ time, goal (trace step state schedule time) := by
  have known (time : Nat) : P (trace step state schedule time) := run_invariant keeps start _
  suffices reaches : ∀ value time, measure (trace step state schedule time) = value →
      ∃ later, goal (trace step state schedule later) from reaches _ 0 rfl
  intro value
  induction value using wellFounded.induction with
  | _ value ih =>
      rintro time rfl
      by_cases reached : goal (trace step state schedule time)
      · exact ⟨time, reached⟩
      -- the state gets smaller before the turn of a thread that is ready, or with it
      have waits (count : Nat) : (∃ later, less (measure (trace step state schedule later))
          (measure (trace step state schedule time))) ∨
          trace step state schedule (time + count) = trace step state schedule time := by
        induction count with
        | zero => exact .inr rfl
        | succ count unmoved =>
            rcases unmoved with smaller | same
            · exact .inl smaller
            · have next : trace step state schedule (time + count + 1) =
                  step (trace step state schedule (time + count)) (schedule (time + count)) :=
                trace_succ state schedule (time + count)
              rw [same] at next
              rcases moves _ (schedule (time + count)) (known time) (fine _) with stays | smaller
              · exact .inr (next.trans stays)
              · exact .inl ⟨time + count + 1, next ▸ smaller⟩
      obtain ⟨thread, helps⟩ := ready _ (known time) reached
      obtain ⟨later, after, turns⟩ := fair thread time
      have smaller : ∃ later, less (measure (trace step state schedule later))
          (measure (trace step state schedule time)) := by
        rcases waits (later - time) with smaller | same
        · exact smaller
        · rw [Nat.add_sub_cancel' after] at same
          refine ⟨later + 1, ?_⟩
          rw [trace_succ, same]
          exact helps _ turns
      obtain ⟨sooner, smaller⟩ := smaller
      exact ih _ smaller sooner rfl

end Schedule
