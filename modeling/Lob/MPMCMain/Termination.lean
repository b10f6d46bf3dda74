import Lob.MPMCMain.Advances
import Lob.MPMCQueue.Wakeup

/-!
# `mpmc_matching_main` always returns

However its threads are scheduled, the program returns, as long as it has a consumer and every
thread gets its turn again and again. No notification is lost, so no thread waits in vain, and
no spurious wakeup is needed.

Every step that changes the state brings the program closer to its end, so it is enough that,
until the main thread has returned, some thread has a step to take and no other one takes it away.
-/

namespace Lob

/-- The thread whose step it is; a spurious wakeup is nobody's turn. -/
def MPMCMainEvent.turn {args : MPMCArgs} : MPMCMainEvent args → Option (Fin args.threads)
  | .main _ => some args.mainThread
  | .producer id _ _ _ => some (args.producerThread id)
  | .consumer id _ => some (args.consumerThread id)
  | .spurious _ => none

namespace MPMCMain

variable {args : MPMCArgs} {state next : MPMCMain args}

/-! ### No thread waits in vain -/

/-- What holds in every reachable state. -/
structure Runs (state : MPMCMain args) : Prop where
  placed : state.Placed
  steady : state.engine.Steady
  remembers : MPMCRun.Remembers state.queue.queue state.queue.points

/-- The step of the sharded engine that is part of this step. -/
def engineEvent? (state : MPMCMain args) : MPMCMainEvent args → Option (ShardedEvent args.sharded)
  | .consumer id _ =>
      match state.consumers id with
      | .submitting item => some ⟨id, .submit item.symbol item.order []⟩
      | _ => none
  | _ => none

/-- A step of the program is at most one step of the queue and one of the engine. -/
theorem step_components (state : MPMCMain args) (event : MPMCMainEvent args) :
    ((state.step event).queue = state.queue ∨
      ∃ step, (state.step event).queue = state.queue.step step) ∧
    (state.step event).engine = (state.engineEvent? event).elim state.engine state.engine.step := by
  cases event with
  | main woken =>
      simp only [step, mainStep]
      split
      · split
        · split <;> exact ⟨.inl rfl, rfl⟩
        · exact ⟨.inr ⟨.call _ _, rfl⟩, rfl⟩
      · exact ⟨.inr ⟨.go _ _, rfl⟩, rfl⟩
      · split
        · split <;> exact ⟨.inl rfl, rfl⟩
        · exact ⟨.inl rfl, rfl⟩
      · exact ⟨.inl rfl, rfl⟩
  | producer id symbol draw woken =>
      simp only [step, producerStep]
      split
      · split
        · exact ⟨.inr ⟨.call _ _, rfl⟩, rfl⟩
        · exact ⟨.inl rfl, rfl⟩
      · split
        · exact ⟨.inr ⟨.go _ _, rfl⟩, rfl⟩
        · exact ⟨.inr ⟨.go _ _, rfl⟩, rfl⟩
        · exact ⟨.inl rfl, rfl⟩
      · exact ⟨.inl rfl, rfl⟩
      · exact ⟨.inl rfl, rfl⟩
  | consumer id woken =>
      cases point : state.consumers id with
      | calling =>
          simp only [step, consumerStep, engineEvent?, point]
          exact ⟨.inr ⟨.call _ _, rfl⟩, rfl⟩
      | popping =>
          simp only [step, consumerStep, engineEvent?, point]
          split
          · exact ⟨.inr ⟨.go _ _, rfl⟩, rfl⟩
          · exact ⟨.inl rfl, rfl⟩
      | leaving item =>
          simp only [step, consumerStep, engineEvent?, point]
          exact ⟨.inr ⟨.go _ _, rfl⟩, rfl⟩
      | submitting item =>
          simp only [step, consumerStep, engineEvent?, point, submitStep]
          split <;> exact ⟨.inl rfl, rfl⟩
      | countingTrades tradeCount =>
          simp only [step, consumerStep, engineEvent?, point]
          exact ⟨.inl rfl, rfl⟩
      | countingOrder =>
          simp only [step, consumerStep, engineEvent?, point]
          exact ⟨.inl rfl, rfl⟩
      | exited => simp [step, consumerStep, engineEvent?, point]
  | spurious thread =>
      simp only [step]
      split
      · exact ⟨.inr ⟨.go _ _, rfl⟩, rfl⟩
      · exact ⟨.inr ⟨.go _ _, rfl⟩, rfl⟩
      · exact ⟨.inl rfl, rfl⟩

theorem runs_initial (args : MPMCArgs) : (initial args).Runs where
  placed := placed_initial args
  steady := ShardedEngine.steady_initial _
  remembers := MPMCRun.remembers_run args.queueCapacity args.queuePositive []

theorem Runs.step (runs : state.Runs) (event : MPMCMainEvent args) : (state.step event).Runs := by
  obtain ⟨queue, engine⟩ := state.step_components event
  refine ⟨runs.placed.moves (step_moves runs.placed runs.steady event), ?_, ?_⟩
  · rw [engine]
    cases state.engineEvent? event with
    | none => exact runs.steady
    | some step => exact runs.steady.step step
  · rcases queue with same | ⟨step, moved⟩
    · rw [same]
      exact runs.remembers
    · rw [moved]
      exact runs.remembers.step step

theorem runs_run (args : MPMCArgs) (events : List (MPMCMainEvent args)) :
    (Schedule.run step (initial args) events).Runs :=
  Schedule.run_invariant (P := Runs) (fun _ event runs => runs.step event) (runs_initial args)
    events

/-- If all threads are blocked or outside, who is blocked waits for good reason. -/
theorem Runs.blocked (runs : state.Runs)
    (resting : ∀ thread, (state.queue.points thread).resting) (thread : Fin args.threads) :
    (state.queue.points thread = .blockedPop →
      state.queue.queue.buffer = [] ∧ state.queue.queue.closed = false) ∧
    ∀ item, state.queue.points thread = .blockedPush item →
      state.queue.queue.buffer ≠ [] ∧ state.queue.queue.closed = false := by
  have silent (id : Fin args.threads) := MPMCPoint.idle_of_resting (resting id)
  refine ⟨fun blocked => ⟨?_, ?_⟩, fun item blocked => ?_⟩
  · have stored := runs.remembers.items ⟨thread, by rw [blocked]; trivial⟩
    rw [Finset.sum_eq_zero (fun id _ => (silent id).1)] at stored
    exact List.length_eq_zero_iff.mp (Nat.le_zero.mp stored)
  · by_contra closed
    obtain ⟨closer, tells⟩ := runs.remembers.poppers (Bool.eq_true_of_not_eq_false closed)
      ⟨thread, by rw [blocked]; trivial⟩
    exact (silent closer).2.2.1 tells
  · have opened : state.queue.queue.closed = false := by
      by_contra closed
      obtain ⟨closer, tells⟩ := runs.remembers.pushers (Bool.eq_true_of_not_eq_false closed)
        ⟨thread, by rw [blocked]; trivial⟩
      exact (silent closer).2.2.2 tells
    have free := runs.remembers.slots ⟨thread, by rw [blocked]; trivial⟩
    rw [Finset.sum_eq_zero (fun id _ => (silent id).2.1), MPMCQueue.freeSlots, opened] at free
    refine ⟨fun empty => ?_, opened⟩
    rw [empty] at free
    exact absurd free (Nat.not_le.mpr state.queue.queue.positive)

theorem thread_cases (thread : Fin args.threads) :
    (∃ id, thread = args.consumerThread id) ∨ (∃ id, thread = args.producerThread id) ∨
      thread = args.mainThread := by
  have bound : thread.val < args.consumers + args.producers + 1 := thread.isLt
  by_cases consumer : thread.val < args.consumers
  · exact .inl ⟨⟨thread.val, consumer⟩, rfl⟩
  by_cases producer : thread.val < args.consumers + args.producers
  · exact .inr (.inl ⟨⟨thread.val - args.consumers, by omega⟩,
      Fin.ext (show thread.val = args.consumers + (thread.val - args.consumers) by omega)⟩)
  · exact .inr (.inr (Fin.ext (show thread.val = args.consumers + args.producers by omega)))

/-- No thread has anything to do. -/
structure Stuck (state : MPMCMain args) : Prop where
  producers : ∀ id, state.producers id = .returned ∨
    ∃ item, state.queue.points (args.producerThread id) = .blockedPush item
  consumers : ∀ id, state.consumers id = .exited ∨
    state.queue.points (args.consumerThread id) = .blockedPop
  main : (∃ index, ∃ inside : index < args.producers, state.main = .joiningProducers index ∧
      state.producers ⟨index, inside⟩ ≠ .returned) ∨
    (∃ index, ∃ inside : index < args.consumers, state.main = .joiningConsumers index ∧
      state.consumers ⟨index, inside⟩ ≠ .exited) ∨
    ∃ summary, state.main = .returned summary

/-- If every thread has a turn at which it does nothing, the program is stuck. -/
theorem stuck_of_waits (waits : ∀ thread, ∃ event : MPMCMainEvent args,
    event.turn = some thread ∧ state.Waits event) : state.Stuck where
  producers id := by
    obtain ⟨event, turn, waits⟩ := waits (args.producerThread id)
    cases waits with
    | @producerReturned other _ _ _ returned =>
        obtain rfl := args.producerThread_injective (Option.some.inj turn)
        exact .inl returned
    | @producerBlocked other _ _ _ item blocked =>
        obtain rfl := args.producerThread_injective (Option.some.inj turn)
        exact .inr ⟨item, blocked⟩
    | @consumerExited other _ _ =>
        exact absurd (Option.some.inj turn) (args.consumerThread_ne_producerThread other id)
    | @consumerBlocked other _ _ =>
        exact absurd (Option.some.inj turn) (args.consumerThread_ne_producerThread other id)
    | awake => contradiction
    | _ => exact absurd (Option.some.inj turn) (args.producerThread_ne_mainThread id).symm
  consumers id := by
    obtain ⟨event, turn, waits⟩ := waits (args.consumerThread id)
    cases waits with
    | @producerReturned other _ _ _ _ =>
        exact absurd (Option.some.inj turn) (args.consumerThread_ne_producerThread id other).symm
    | @producerBlocked other _ _ _ _ _ =>
        exact absurd (Option.some.inj turn) (args.consumerThread_ne_producerThread id other).symm
    | @consumerExited other _ exited =>
        obtain rfl := args.consumerThread_injective (Option.some.inj turn)
        exact .inl exited
    | @consumerBlocked other _ blocked =>
        obtain rfl := args.consumerThread_injective (Option.some.inj turn)
        exact .inr blocked
    | awake => contradiction
    | _ => exact absurd (Option.some.inj turn) (args.consumerThread_ne_mainThread id).symm
  main := by
    obtain ⟨event, turn, waits⟩ := waits args.mainThread
    cases waits with
    | @producerReturned other _ _ _ _ =>
        exact absurd (Option.some.inj turn) (args.producerThread_ne_mainThread other)
    | @producerBlocked other _ _ _ _ _ =>
        exact absurd (Option.some.inj turn) (args.producerThread_ne_mainThread other)
    | @consumerExited other _ _ =>
        exact absurd (Option.some.inj turn) (args.consumerThread_ne_mainThread other)
    | @consumerBlocked other _ _ =>
        exact absurd (Option.some.inj turn) (args.consumerThread_ne_mainThread other)
    | joinsProducer joining inside running => exact .inl ⟨_, inside, joining, running⟩
    | joinsConsumer joining inside running => exact .inr (.inl ⟨_, inside, joining, running⟩)
    | mainReturned returned => exact .inr (.inr ⟨_, returned⟩)
    | awake => contradiction

/-- In a stuck state every thread is blocked or outside the queue. -/
theorem Stuck.resting (stuck : state.Stuck) (placed : state.Placed) (thread : Fin args.threads) :
    (state.queue.points thread).resting := by
  rcases thread_cases thread with ⟨id, rfl⟩ | ⟨id, rfl⟩ | rfl
  · rcases stuck.consumers id with exited | blocked
    · have here := placed.consumers id
      rw [exited] at here
      rw [here]
      trivial
    · rw [blocked]
      trivial
  · rcases stuck.producers id with returned | ⟨item, blocked⟩
    · have here := placed.producers id
      rw [returned] at here
      rw [here]
      trivial
    · rw [blocked]
      trivial
  · have here := placed.main
    rcases stuck.main with ⟨_, _, joining, _⟩ | ⟨_, _, joining, _⟩ | ⟨_, joining⟩
    all_goals
      rw [joining] at here
      rw [here]
      trivial

/-- With a consumer, the program is stuck only when it has returned. -/
theorem Stuck.returned (stuck : state.Stuck) (runs : state.Runs) (consumers : 0 < args.consumers) :
    ∃ summary, state.main = .returned summary := by
  have blocked := runs.blocked (stuck.resting runs.placed)
  rcases stuck.main with
    ⟨index, inside, joining, running⟩ | ⟨index, inside, joining, running⟩ | returned
  · -- a blocked producer finds the queue open and full, a consumer finds it closed or empty
    obtain ⟨item, blockedPush⟩ := (stuck.producers ⟨index, inside⟩).resolve_left running
    obtain ⟨full, opened⟩ := (blocked _).2 item blockedPush
    rcases stuck.consumers ⟨0, consumers⟩ with exited | blockedPop
    · exact absurd (opened.symm.trans (runs.placed.drained _ exited).1) Bool.false_ne_true
    · exact absurd ((blocked _).1 blockedPop).1 full
  · have blockedPop := (stuck.consumers ⟨index, inside⟩).resolve_left running
    have closed := runs.placed.closed.mpr (by rw [joining]; trivial)
    exact absurd (((blocked _).1 blockedPop).2.symm.trans closed) Bool.false_ne_true
  · exact returned

/-- The main thread has returned. -/
def Returned (state : MPMCMain args) : Prop := ∃ summary, state.main = .returned summary

/-- With at least one consumer the program returns. From every reachable state and under every
schedule that gives each thread its turn again and again, the main thread comes to its end; no
wakeup is lost, so no spurious one is needed. -/
theorem always_returns (args : MPMCArgs) (consumers : 0 < args.consumers)
    (events : List (MPMCMainEvent args)) (schedule : Nat → MPMCMainEvent args)
    (notified : ∀ time, (schedule time).turn ≠ none)
    (fair : ∀ thread time, ∃ later, time ≤ later ∧ (schedule later).turn = some thread) :
    ∃ time, (Schedule.trace step (Schedule.run step (initial args) events) schedule
      time).Returned := by
  have wellFounded : WellFounded (Prod.Lex (· < ·) (· < ·) : Nat × Nat → Nat × Nat → Prop) :=
    WellFounded.prod_lex wellFounded_lt wellFounded_lt
  have real {event : MPMCMainEvent args} (turn : event.turn ≠ none) (thread : Fin args.threads) :
      event ≠ .spurious thread := by
    rintro rfl
    exact turn rfl
  refine Schedule.eventually_of_fair (P := Runs) wellFounded
    (fun state => (state.unsubmitted, state.rank)) MPMCMainEvent.turn
    (fun _ event runs => runs.step event) (fun state event runs turn => ?_)
    (fun state runs unfinished => ?_) (runs_run args events) notified fair
  · by_cases waits : state.Waits event ∧ state.step event = state
    · exact .inl waits.2
    · exact .inr ((step_moves runs.placed runs.steady event).advances runs.placed waits (real turn))
  · by_contra none
    refine unfinished (Stuck.returned (stuck_of_waits (fun thread => ?_)) runs consumers)
    by_contra busy
    refine none ⟨thread, fun event turn => ?_⟩
    refine (step_moves runs.placed runs.steady event).advances runs.placed (fun idle => ?_)
      (real (by rw [turn]; exact Option.some_ne_none thread))
    exact busy ⟨event, turn, idle.1⟩

/-- One producer with two orders and one consumer take turns with the main thread. -/
theorem always_returns_in_turns :
    let args : MPMCArgs :=
      { producers := 1, consumers := 1, ordersPerProducer := 2, queueCapacity := 1
        queuePositive := by decide }
    let draw : Draw 9900 10100 100 :=
      ⟨true, 10000, 5, 0, by decide, by decide, by decide, by decide⟩
    let schedule (time : Nat) : MPMCMainEvent args :=
      if time % 3 = 0 then .consumer ⟨0, by decide⟩ args.mainThread
      else if time % 3 = 1 then .producer ⟨0, by decide⟩ 0 draw args.mainThread
      else .main args.mainThread
    ∃ time, (Schedule.trace step (Schedule.run step (initial args) []) schedule
      time).Returned := by
  intro args draw schedule
  have turn (time : Nat) : (schedule time).turn = some ⟨time % 3, Nat.mod_lt _ (by decide)⟩ := by
    have cases : time % 3 = 0 ∨ time % 3 = 1 ∨ time % 3 = 2 := by omega
    rcases cases with number | number | number <;>
      simp [schedule, number, MPMCMainEvent.turn, MPMCArgs.consumerThread,
        MPMCArgs.producerThread, MPMCArgs.mainThread, args]
  refine always_returns args (by decide) [] schedule (fun time => ?_) (fun thread time => ?_)
  · rw [turn]
    exact Option.some_ne_none _
  · have bound : thread.val < 3 := thread.isLt
    refine ⟨3 * time + thread.val, by omega, ?_⟩
    rw [turn]
    exact congrArg some (Fin.ext (show (3 * time + thread.val) % 3 = thread.val by omega))

end MPMCMain

end Lob
