import Lob.Order
import Lob.SPSCQueue.Fifo

/-!
# The idle exit of the engine process

`feed_handler` pushes its commands and then stores `producer_done`. The main loop of
`matching_engine_main` pops commands; when a pop fails it loads `producer_done`, tests the
idle timer and leaves the loop. The two processes share `order_queue` and `producer_done`,
and every access is one step.

A failed pop and the load of `producer_done` are two reads. Commands that arrive between
them, followed at once by the store of `producer_done`, are left behind. `DoneInTime`
excludes exactly this step of the feed, and every run without it drains the queue.
-/

namespace Lob

/-- Where the engine is in its main loop. -/
inductive EnginePoint where
  /-- in `try_pop` -/
  | popping
  /-- `try_pop` has returned false, `producer_done` comes next -/
  | sawEmpty
  /-- `producer_done` was set, the timer test comes next -/
  | sawDone
  /-- a command was popped and is being journaled and applied -/
  | processing (command : Command)
  /-- out of the loop through the idle exit -/
  | exited
  deriving DecidableEq, Repr

/-- The command that was popped but is not processed yet. -/
@[simp] def EnginePoint.inFlight : EnginePoint → List Command
  | .processing command => [command]
  | _ => []

/-- The two processes. -/
structure FeedEngine (capacity : PowerOfTwo) where
  orders : SPSCRun Command capacity
  /-- the commands that the feed has not pushed yet -/
  toSend : List Command
  producerDone : Bool := false
  engine : EnginePoint := .popping
  processed : List Command := []

/-- Whose step is next. What the engine's timer shows in that step is arbitrary. -/
inductive FeedEngineEvent where
  | feed
  | engine (idleFor : Int)
  deriving DecidableEq, Repr

namespace FeedEngine

variable {capacity : PowerOfTwo}

/-- Both processes before their first access to the queue. -/
def initial (counter : UInt64) (buffer : Vector Command capacity.value.toNat)
    (commands : List Command) : FeedEngine capacity where
  orders := .initial counter buffer
  toSend := commands

/-- `pushMessage` for one command after another, then the store of `producer_done`. -/
def feedStep (state : FeedEngine capacity) : FeedEngine capacity :=
  match state.toSend with
  | [] => { state with producerDone := true }
  | command :: rest =>
      { state with
        orders := state.orders.step (.producer command)
        toSend :=
          match (state.orders.system.step (.producer command)).2 with
          | some (.pushed _) => rest
          | _ => command :: rest }

/-- The main loop; `idleExitMs` is `args.idle_exit_ms`. -/
def engineStep (idleExitMs idleFor : Int) (state : FeedEngine capacity) : FeedEngine capacity :=
  match state.engine with
  | .popping =>
      { state with
        orders := state.orders.step .consumer
        engine :=
          match (state.orders.system.step .consumer).2 with
          | some .empty => if idleExitMs > 0 then .sawEmpty else .popping
          | some (.popped command) => .processing command
          | _ => .popping }
  | .sawEmpty => { state with engine := if state.producerDone then .sawDone else .popping }
  | .sawDone => { state with engine := if idleFor > idleExitMs then .exited else .popping }
  | .processing command =>
      { state with processed := state.processed ++ [command], engine := .popping }
  | .exited => state

def step (idleExitMs : Int) (state : FeedEngine capacity) : FeedEngineEvent → FeedEngine capacity
  | .feed => state.feedStep
  | .engine idleFor => state.engineStep idleExitMs idleFor

/-- The feed does not store `producer_done` while commands are queued and the engine, whose
pop has failed, is about to load it. -/
def DoneInTime (state : FeedEngine capacity) (event : FeedEngineEvent) : Prop :=
  event = .feed → state.toSend = [] → state.producerDone = false → state.engine = .sawEmpty →
    state.orders.unread = []

instance (state : FeedEngine capacity) (event : FeedEngineEvent) :
    Decidable (state.DoneInTime event) := by
  unfold DoneInTime
  infer_instance

end FeedEngine

/-! ### Runs that drain the queue -/

/-- The engine has found `producer_done` set after its last pop. -/
@[simp] def EnginePoint.pastDone : EnginePoint → Bool
  | .sawDone => true
  | .exited => true
  | _ => false

/-- The engine has found `producer_done` set, or will if the feed stores nothing more. -/
@[simp] def EnginePoint.willTrust (producerDone : Bool) : EnginePoint → Bool
  | .sawEmpty => producerDone
  | point => point.pastDone

namespace FeedEngine

variable {capacity : PowerOfTwo} {state : FeedEngine capacity} {commands : List Command}

structure Drains (commands : List Command) (state : FeedEngine capacity) : Prop where
  lossless : state.orders.Lossless
  sent : state.orders.pushed ++ state.toSend = commands
  pushing : ∀ item ∈ state.orders.system.producer.item?, state.toSend.head? = some item
  finished : state.producerDone = true → state.toSend = []
  processed : state.orders.popped = state.processed ++ state.engine.inFlight
  done : state.engine.pastDone = true → state.producerDone = true
  drained : state.engine.willTrust state.producerDone = true → state.orders.unread = []

theorem drains_initial (counter : UInt64) (buffer : Vector Command capacity.value.toNat)
    (commands : List Command) : (initial counter buffer commands).Drains commands where
  lossless := SPSCRun.lossless_initial counter buffer
  sent := rfl
  pushing := fun _ idle => absurd idle (Option.not_mem_none _)
  finished := fun impossible => absurd impossible Bool.false_ne_true
  processed := rfl
  done := fun impossible => absurd impossible Bool.false_ne_true
  drained := fun impossible => absurd impossible Bool.false_ne_true

theorem Drains.storeDone (drains : state.Drains commands) (all : state.toSend = [])
    (inTime : state.DoneInTime .feed) :
    Drains commands { state with producerDone := true } := by
  refine { drains with finished := fun _ => all, done := fun _ => rfl, drained := ?_ }
  intro trusts
  by_cases before : state.engine.willTrust state.producerDone = true
  · exact drains.drained before
  · -- only the load of `producer_done` can still be ahead
    cases point : state.engine <;> cases done : state.producerDone <;>
      simp_all [EnginePoint.willTrust, EnginePoint.pastDone]
    exact inTime rfl all done point

theorem Drains.sends (drains : state.Drains commands) : state.orders.Sends commands state.toSend :=
  ⟨drains.lossless, drains.sent, drains.pushing⟩

/-- What the feed has still to send after a step of `try_push`. -/
theorem toSend_eq (orders : SPSCRun Command capacity) (command : Command) (rest : List Command) :
    (match (orders.system.step (.producer command)).2 with
      | some (.pushed _) => rest
      | _ => command :: rest) =
      if orders.completesPush command then rest else command :: rest := by
  unfold SPSCRun.completesPush
  rcases (orders.system.step (.producer command)).2 with _ | _ | _ | _ | _ <;> rfl

theorem Drains.push (drains : state.Drains commands) {command : Command} {rest : List Command}
    (left : state.toSend = command :: rest) :
    Drains commands { state with
      orders := state.orders.step (.producer command)
      toSend :=
        match (state.orders.system.step (.producer command)).2 with
        | some (.pushed _) => rest
        | _ => command :: rest } := by
  have unfinished : state.producerDone = false := by
    cases done : state.producerDone with
    | false => rfl
    | true => exact absurd (drains.finished done) (by simp [left])
  have undone : state.engine.willTrust state.producerDone ≠ true := by
    intro trusts
    have done := drains.done
    cases point : state.engine <;>
      simp_all [EnginePoint.willTrust, EnginePoint.pastDone]
  have sends := drains.sends
  rw [left] at sends
  rw [toSend_eq]
  exact ⟨sends.push.lossless, sends.push.sent, sends.push.pushing,
    fun done => absurd (unfinished.symm.trans done) Bool.false_ne_true,
    (state.orders.popped_push command).trans drains.processed, drains.done,
    fun trusts => absurd trusts undone⟩

theorem Drains.feedStep (drains : state.Drains commands) (inTime : state.DoneInTime .feed) :
    state.feedStep.Drains commands := by
  unfold FeedEngine.feedStep
  split
  · rename_i all
    exact drains.storeDone all inTime
  · rename_i command rest left
    exact drains.push left

theorem feedStep_engine (state : FeedEngine capacity) : state.feedStep.engine = state.engine := by
  unfold FeedEngine.feedStep
  split <;> rfl

theorem Drains.pop (drains : state.Drains commands) (popping : state.engine = .popping)
    (idleExitMs : Int) :
    Drains commands { state with
      orders := state.orders.step .consumer
      engine :=
        match (state.orders.system.step .consumer).2 with
        | some .empty => if idleExitMs > 0 then .sawEmpty else .popping
        | some (.popped command) => .processing command
        | _ => .popping } := by
  obtain ⟨lossless, sent, pushing⟩ := drains.sends.pop
  have processed := drains.processed
  rw [popping] at processed
  rcases drains.lossless.pop_cases with
    ⟨outcome, popped⟩ | ⟨outcome, popped, empty⟩ | ⟨out, outcome, popped⟩
  · rw [outcome]
    exact ⟨lossless, sent, pushing, drains.finished, popped.trans processed, by simp, by simp⟩
  · rw [outcome]
    refine ⟨lossless, sent, pushing, drains.finished, ?_, ?_, fun _ => empty⟩
    · rw [popped, processed]
      dsimp only
      split <;> rfl
    · dsimp only
      split <;> simp
  · rw [outcome]
    refine ⟨lossless, sent, pushing, drains.finished, ?_, by simp, by simp⟩
    rw [popped, processed]
    simp [EnginePoint.inFlight]

/-- Where the engine goes without touching the queue. -/
theorem Drains.moveTo (drains : state.Drains commands) {point : EnginePoint}
    (inFlight : point.inFlight = state.engine.inFlight)
    (done : point.pastDone = true → state.producerDone = true)
    (drained : point.willTrust state.producerDone = true → state.orders.unread = []) :
    Drains commands { state with engine := point } :=
  { drains with processed := by rw [drains.processed, inFlight], done, drained }

theorem Drains.engineStep (drains : state.Drains commands) (idleExitMs idleFor : Int) :
    (state.engineStep idleExitMs idleFor).Drains commands := by
  unfold FeedEngine.engineStep
  have done := drains.done
  have drained := drains.drained
  split
  · rename_i popping
    exact drains.pop popping idleExitMs
  · rename_i point
    rw [point] at drained
    split
    · rename_i seen
      exact drains.moveTo (by rw [point]; rfl) (fun _ => seen) (fun _ => drained seen)
    · exact drains.moveTo (by rw [point]; rfl) (by simp) (by simp)
  · rename_i point
    rw [point] at done drained
    split
    · exact drains.moveTo (by rw [point]; rfl) done drained
    · exact drains.moveTo (by rw [point]; rfl) (by simp) (by simp)
  · rename_i command point
    refine { drains with processed := ?_, done := by simp, drained := by simp }
    rw [drains.processed, point]
    exact (List.append_nil _).symm
  · exact drains

theorem Drains.step (drains : state.Drains commands) (idleExitMs : Int) {event : FeedEngineEvent}
    (inTime : state.DoneInTime event) : (state.step idleExitMs event).Drains commands := by
  cases event with
  | feed => exact drains.feedStep inTime
  | engine idleFor => exact drains.engineStep idleExitMs idleFor

/-- An engine that has left its loop has popped and processed everything. -/
theorem Drains.processed_all (drains : state.Drains commands) (exited : state.engine = .exited) :
    state.orders.unread = [] ∧ state.processed = state.orders.pushed ∧
      state.orders.pushed = commands := by
  have empty : state.orders.unread = [] := drains.drained (by rw [exited]; rfl)
  have all : state.toSend = [] := drains.finished (drains.done (by rw [exited]; rfl))
  have sends := drains.sends
  rw [all] at sends
  obtain ⟨popped, pushed⟩ := sends.popped_eq empty
  refine ⟨empty, ?_, pushed⟩
  rw [← popped, drains.processed, exited]
  exact (List.append_nil _).symm

/-- In a run whose every store of `producer_done` is in time, an engine that has left its
loop has popped and processed everything. -/
theorem idle_exit_drained (idleExitMs : Int) (counter : UInt64)
    (buffer : Vector Command capacity.value.toNat) (commands : List Command)
    {events : List FeedEngineEvent}
    (inTime : Schedule.Respects (step idleExitMs) DoneInTime (initial counter buffer commands)
      events) :
    let state := Schedule.run (step idleExitMs) (initial counter buffer commands) events
    state.engine = .exited →
      state.orders.unread = [] ∧ state.processed = state.orders.pushed ∧
        state.orders.pushed = commands := by
  intro state exited
  have drains : state.Drains commands :=
    Schedule.run_invariant_of_respects (fun _ _ known allowed => known.step idleExitMs allowed)
      (drains_initial counter buffer commands) inTime
  exact drains.processed_all exited

/-- One order: the feed is done before the engine's first pop. -/
theorem idle_exit_drained_one :
    let order : Command := .newOrder { id := 1, side := .buy, price := 100, quantity := 10 }
    let start : FeedEngine kOrderQueueCapacity :=
      initial 0 (Vector.replicate _ (.cancel 0)) [order]
    let events : List FeedEngineEvent :=
      [.feed, .feed, .feed, .feed, .feed] ++ List.replicate 9 (.engine 2001)
    let final := Schedule.run (step 2000) start events
    Schedule.Respects (step 2000) DoneInTime start events ∧ final.engine = .exited ∧
      final.orders.unread = [] ∧ final.processed = [order] := by
  intro order start events final
  have inTime : Schedule.Respects (step 2000) DoneInTime start events := by decide +kernel
  have exited : final.engine = .exited := by decide +kernel
  obtain ⟨empty, processed, pushed⟩ := idle_exit_drained 2000 0 _ [order] inTime exited
  exact ⟨inTime, exited, empty, processed.trans pushed⟩

/-- The engine's pop fails, then the feed pushes its only order and stores `producer_done`.
The engine, idle for longer than two seconds, leaves its loop, and the order stays in the
queue. -/
theorem idle_exit_strands_order :
    let order : Command := .newOrder { id := 1, side := .buy, price := 100, quantity := 10 }
    let start : FeedEngine kOrderQueueCapacity :=
      initial 0 (Vector.replicate _ (.cancel 0)) [order]
    let final := Schedule.run (step 2000) start
      [.engine 1999, .engine 1999, .feed, .feed, .feed, .feed, .feed, .engine 2001, .engine 2001]
    final.engine = .exited ∧ final.orders.pushed = [order] ∧ final.processed = [] ∧
      final.orders.unread = [order] := by
  decide +kernel

/-- The condition is needed: from every state in which the feed may store `producer_done` too
early, this store and the engine's next two steps strand what is queued. -/
theorem stranded_of_not_doneInTime {idleExitMs : Int} (late : ¬state.DoneInTime .feed)
    (idleFor : Int) :
    let final := Schedule.run (step idleExitMs) state
      [.feed, .engine idleFor, .engine (idleExitMs + 1)]
    final.engine = .exited ∧ final.orders.unread ≠ [] := by
  simp only [DoneInTime, Classical.not_imp] at late
  obtain ⟨_, all, _, point, queued⟩ := late
  have exits : idleExitMs + 1 > idleExitMs := by omega
  simp [Schedule.run, step, feedStep, engineStep, all, point, exits, queued]

end FeedEngine

end Lob
