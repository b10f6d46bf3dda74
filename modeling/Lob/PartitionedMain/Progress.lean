import Lob.PartitionedMain.Advances
import Lob.PartitionedMain.Runs

/-!
# When `partitioned_matching_main` hangs

The program waits in many places: for its producers, for room in a queue, for commands, for
`pending_` to become zero, for its workers. All but one of them resolve themselves. The main
thread may miss the notification of `waitUntilIdle`, and then nothing but a spurious wakeup
lets it go on. Apart from this state, from every reachable state the program can still return,
without any spurious wakeup.
-/

namespace Lob

namespace PartitionedMain

variable {args : PartitionedArgs} {state : PartitionedMain args} {id : Fin args.producers}

/-! ### The state in which the program hangs -/

/-- The main thread sleeps in `waitUntilIdle`, nothing is pending and no worker is about to
notify. -/
structure Hangs (state : PartitionedMain args) : Prop where
  draining : state.main = .draining
  asleep : (state.engine.waiters args.waiter).asleep = true
  idle : state.engine.pending = 0
  unnotified : ∀ id, (state.engine.shards id).worker ≠ .notifying

/-- The step is not a spurious wakeup of the main thread. -/
def NotSpurious (state : PartitionedMain args) : PartitionedMainEvent args → Prop
  | .main => state.main = .draining → state.engine.waiters args.waiter ≠ .blocked
  | _ => True

/-- No worker calls `notify_all` while the main thread is between its predicate and its block. -/
def NotifiesAwake (state : PartitionedMain args) : PartitionedMainEvent args → Prop
  | .worker id => (state.engine.shards id).worker = .notifying →
      state.engine.waiters args.waiter ≠ .sleeping
  | _ => True

theorem Runs.settles (runs : state.Runs) : state.engine.Settles :=
  runs.proceeds.reachable.settles

/-- The main thread drains the engine when all producers have returned. -/
theorem Runs.producers_idle (runs : state.Runs) (returned : state.drivers id = .returned) :
    state.engine.producers id = .idle := by
  have carries := runs.proceeds.drives.carries id
  rw [returned] at carries
  exact carries

theorem Runs.returned (runs : state.Runs) (draining : state.main = .draining)
    (id : Fin args.producers) : state.drivers id = .returned :=
  runs.proceeds.joined id (by rw [draining]; exact id.isLt)

theorem Runs.not_isNotifying (runs : state.Runs) (id : Fin args.producers) :
    (state.engine.producers id).isNotifying = false := by
  have carries := runs.proceeds.drives.carries id
  cases point : state.drivers id with
  | generating i =>
      rw [point] at carries
      rw [carries.1]
      rfl
  | enqueueing i =>
      rw [point] at carries
      obtain ⟨_, command, _, call | call | call⟩ := carries
      all_goals rw [call]; rfl
  | failing =>
      rw [point] at carries
      exact carries.elim
  | _ =>
      rw [point] at carries
      rw [carries]
      rfl

/-- The program hangs where the main thread cannot rely on a notification. -/
theorem Runs.heard_iff (runs : state.Runs) : state.engine.Heard ↔ ¬state.Hangs := by
  constructor
  · intro heard hangs
    rcases heard ⟨args.waiter, hangs.asleep⟩ hangs.idle with ⟨id, notifying⟩ | ⟨id, notifying⟩
    · exact absurd ((runs.not_isNotifying id).symm.trans notifying) Bool.false_ne_true
    · exact hangs.unnotified id notifying
  · rintro alive ⟨id, asleep⟩ idle
    obtain rfl : id = args.waiter := Subsingleton.elim _ _
    by_contra unheard
    have draining : state.main = .draining := by
      by_contra elsewhere
      rw [runs.outside elsewhere] at asleep
      exact absurd asleep Bool.false_ne_true
    exact alive ⟨draining, asleep, idle, fun id notifying => unheard (.inr ⟨id, notifying⟩)⟩

theorem Runs.heard_step (runs : state.Runs) (heard : state.engine.Heard)
    {event : PartitionedMainEvent args} (awake : state.NotifiesAwake event) :
    (state.step event).engine.Heard := by
  have single (id : Fin args.config.waiters) : id = args.waiter := Subsingleton.elim _ _
  cases event with
  | worker id =>
      refine heard.workerStep (fun notifies waiter => ?_)
      rw [single waiter]
      exact awake (by simpa [PartitionedEngine.notifies] using notifies)
  | producer id symbol draw =>
      obtain ⟨_, _, same | ⟨call, moved⟩⟩ := state.producerStep_engine id symbol draw
      · rw [PartitionedMain.step, same]
        exact heard
      · rw [PartitionedMain.step, moved]
        refine heard.step runs.settles.counts (fun notifies => ?_)
        exact absurd ((runs.not_isNotifying id).symm.trans notifies) Bool.false_ne_true
  | main =>
      rw [PartitionedMain.step]
      cases point : state.main with
      | draining =>
          simp only [mainStep, point]
          exact heard.waiterStep args.waiter
      | closing ok =>
          simp only [mainStep, point]
          refine heard.closerStep (fun _ waiter => ?_)
          rw [single waiter, runs.outside (by simp [point])]
          simp
      | _ =>
          rw [mainStep_engine (by simp [point]) (by simp [point])]
          exact heard

/-! ### A step that helps -/

/-- A producer thread that has not returned uses an open engine. -/
theorem Runs.opened (runs : state.Runs) (running : state.drivers id ≠ .returned) :
    state.engine.Open := by
  refine runs.proceeds.opened ?_
  by_contra closed
  refine running (runs.proceeds.joined id ?_)
  cases point : state.main <;>
    simp_all [PartitionedMainPoint.beforeClosing, PartitionedMainPoint.joined]

/-- No worker has anything to do. -/
def Rests (state : PartitionedMain args) : Prop :=
  ∀ id, (state.engine.shards id).worker = .exited ∨
    (state.engine.shards id).worker = .popping ∧ (state.engine.shards id).queue.buffer = [] ∧
      (state.engine.shards id).queue.closed = false

theorem Runs.drained (runs : state.Runs) (rests : state.Rests) (id : args.config.ShardId) :
    (state.engine.shards id).queue.buffer = [] := by
  rcases rests id with exited | ⟨_, drained, _⟩
  · exact (runs.settles.closing.exits id exited).drained
  · exact drained

/-- With empty queues a producer thread waits for the start only. -/
theorem Runs.waits (runs : state.Runs) (rests : state.Rests) (waits : state.Waits id) :
    state.drivers id = .returned ∨ state.drivers id = .waiting ∧ state.main = .gathering := by
  cases waits with
  | returned returned => exact .inl returned
  | start waiting unstarted => exact .inr ⟨waiting, runs.unstarted unstarted⟩
  | @room command counted full =>
      rw [runs.drained rests] at full
      have positive :=
        (state.engine.shards (args.config.shardIndex command.symbol)).queue.positive
      exact absurd full (Nat.not_le.mpr positive)

/-- The engine is idle when its workers rest and its producers have returned. -/
theorem Runs.pending_eq_zero (runs : state.Runs) (rests : state.Rests)
    (returned : ∀ id, state.drivers id = .returned) : state.engine.pending = 0 := by
  have free : state.engine.inFlight = 0 := by
    refine PartitionedEngine.inFlight_eq_zero_iff.mpr ⟨fun id => ?_, fun id => ?_⟩
    · rw [runs.producers_idle (returned id)]
      rfl
    · refine Shard.inFlight_eq_zero_iff.mpr ⟨runs.drained rests id, ?_⟩
      rcases rests id with exited | ⟨popping, _⟩
      · rw [exited]
        rfl
      · rw [popping]
        rfl
  have counts : state.engine.pending = state.engine.inFlight := runs.settles.counts
  rw [counts, free]
  rfl

/-- When neither the workers nor the producers have anything to do, the main thread can go on. -/
theorem Runs.mainReady (runs : state.Runs) (heard : state.engine.Heard) (rests : state.Rests)
    (waits : ∀ id, state.Waits id) (running : ∀ status, state.main ≠ .returned status) :
    state.MainReady where
  gathered gathering := by
    have none : ∑ id, (state.drivers id).unready = 0 := by
      refine Finset.sum_eq_zero (fun id _ => ?_)
      rcases runs.waits rests (waits id) with returned | ⟨waiting, _⟩
      · rw [returned]
        rfl
      · rw [waiting]
        rfl
    have gathered := runs.gathered
    rw [Gathered, none] at gathered
    exact gathered
  returned index joining inside := by
    rcases runs.waits rests (waits ⟨index, inside⟩) with returned | ⟨_, gathering⟩
    · exact returned
    · exact absurd (joining.symm.trans gathering) (by simp)
  notified draining blocked := by
    have idle := runs.pending_eq_zero rests (runs.returned draining)
    rcases heard ⟨args.waiter, by rw [blocked]; rfl⟩ idle with ⟨id, notifying⟩ | ⟨id, notifying⟩
    · exact absurd ((runs.not_isNotifying id).symm.trans notifying) Bool.false_ne_true
    · rcases rests id with exited | ⟨popping, _⟩
      · exact absurd (exited.symm.trans notifying) (by simp)
      · exact absurd (popping.symm.trans notifying) (by simp)
  free draining locking := by
    by_contra locked
    obtain ⟨id, holds⟩ := runs.settles.mutex (Bool.not_eq_false _ ▸ locked)
    obtain rfl : id = args.waiter := Subsingleton.elim _ _
    simp [locking] at holds
  idle draining _ := runs.pending_eq_zero rests (runs.returned draining)
  exited ok closing index joining inside := by
    rcases rests ⟨index, inside⟩ with exited | ⟨_, _, opened⟩
    · exact exited
    · have closed := runs.settles.closes args.closer ⟨index, inside⟩ (by rw [joining]; trivial)
      exact absurd (opened.symm.trans closed) Bool.false_ne_true
  running := running

/-- From every state that is neither the last one nor hangs, a step leads closer to the end. -/
theorem Runs.exists_advances (runs : state.Runs) (heard : state.engine.Heard)
    (running : ∀ status, state.main ≠ .returned status) :
    ∃ event, state.NotSpurious event ∧ state.NotifiesAwake event ∧
      state.Advances (state.step event) := by
  -- a main thread that is about to block must block before a worker notifies it
  by_cases sleeping : state.main = .draining ∧ state.engine.waiters args.waiter = .sleeping
  · obtain ⟨draining, sleeping⟩ := sleeping
    refine ⟨.main, fun _ => by rw [sleeping]; exact nofun, trivial, advances_mainStep ?_⟩
    refine ⟨fun other => ?_, fun _ other => ?_, fun _ => ?_, fun _ other => ?_, fun _ other => ?_,
      fun _ other => ?_, running⟩
    all_goals simp_all
  have awake : state.engine.waiters args.waiter ≠ .sleeping := by
    intro point
    by_cases draining : state.main = .draining
    · exact sleeping ⟨draining, point⟩
    · exact absurd (point.symm.trans (runs.outside draining)) nofun
  by_cases rests : state.Rests
  · by_cases waits : ∀ id, state.Waits id
    · have ready := runs.mainReady heard rests waits running
      exact ⟨.main, ready.notified, trivial, advances_mainStep ready⟩
    · obtain ⟨id, ready⟩ := not_forall.mp waits
      have opened := runs.opened (fun returned => ready (.returned returned))
      have carries := runs.proceeds.drives.carries id
      have draw : Draw 9950 10050 250 :=
        ⟨true, 9950, 1, 0, by decide, by decide, by decide, by decide⟩
      exact ⟨.producer id 0 draw, trivial, trivial,
        (producerStep_moves opened id carries 0 draw).advances carries ready⟩
  · obtain ⟨id, works⟩ := not_forall.mp rests
    obtain ⟨stays, waits⟩ := not_or.mp works
    refine ⟨.worker id, trivial, fun _ => awake, advances_worker runs.settles stays ?_⟩
    intro popping
    by_contra nothing
    obtain ⟨drained, opened⟩ := not_or.mp nothing
    exact waits ⟨popping, not_not.mp drained, Bool.eq_false_iff.mpr opened⟩

/-- The main thread has returned. -/
def Returned (state : PartitionedMain args) : Prop := ∃ status, state.main = .returned status

theorem Runs.exists_return (runs : state.Runs) (heard : state.engine.Heard) :
    ∃ events, Schedule.Respects PartitionedMain.step NotSpurious state events ∧
      (Schedule.run PartitionedMain.step state events).Returned := by
  have wellFounded : WellFounded (Prod.Lex (· < ·) (· < ·) : Nat × Nat → Nat × Nat → Prop) :=
    WellFounded.prod_lex wellFounded_lt wellFounded_lt
  refine Schedule.exists_run_of_advances
    (P := fun state : PartitionedMain args => state.Runs ∧ state.engine.Heard) wellFounded
    (fun state => (state.unapplied, state.rank)) (fun state known unfinished => ?_) ⟨runs, heard⟩
  obtain ⟨event, fine, awake, advances⟩ :=
    known.1.exists_advances known.2 (fun status here => unfinished ⟨status, here⟩)
  exact ⟨event, fine, ⟨known.1.step event, known.1.heard_step known.2 awake⟩, advances⟩

/-- While the program hangs, its workers wait for commands. -/
theorem Hangs.workerStep (hangs : state.Hangs) (runs : state.Runs) (id : args.config.ShardId) :
    state.engine.workerStep id = state.engine := by
  have opened := runs.proceeds.opened (by rw [hangs.draining]; rfl)
  have counts : state.engine.pending = state.engine.inFlight := runs.settles.counts
  rw [hangs.idle] at counts
  obtain ⟨drained, free⟩ := Shard.inFlight_eq_zero_iff.mp
    ((PartitionedEngine.inFlight_eq_zero_iff.mp (Int.ofNat_eq_zero.mp counts.symm)).2 id)
  have waits : (state.engine.shards id).queue.pop = none := by
    simp [MPMCQueue.pop, drained, opened.queues id]
  unfold PartitionedEngine.workerStep
  cases point : (state.engine.shards id).worker with
  | popping => simp only [waits]
  | notifying => exact absurd point (hangs.unnotified id)
  | exited => rfl
  | faulted => rfl
  | _ =>
      rw [point] at free
      exact absurd free Nat.one_ne_zero

/-- A program that hangs takes no step but the one into the block. -/
theorem Hangs.step (hangs : state.Hangs) (runs : state.Runs) {event : PartitionedMainEvent args}
    (fine : state.NotSpurious event) : (state.step event).Hangs := by
  cases event with
  | worker id =>
      rw [PartitionedMain.step, hangs.workerStep runs id]
      exact hangs
  | producer id symbol draw =>
      rw [PartitionedMain.step, producerStep, runs.returned hangs.draining id]
      exact hangs
  | main =>
      have asleep := hangs.asleep
      cases point : state.engine.waiters args.waiter with
      | sleeping =>
          simp only [PartitionedMain.step, mainStep, hangs.draining, PartitionedEngine.waiterStep,
            point]
          exact ⟨by simp, by simp, hangs.idle, hangs.unnotified⟩
      | blocked => exact absurd point (fine hangs.draining)
      | _ =>
          rw [point] at asleep
          exact absurd asleep Bool.false_ne_true

theorem runs_run (args : PartitionedArgs) (events : List (PartitionedMainEvent args)) :
    (Schedule.run step (initial args) events).Runs :=
  Schedule.run_invariant (P := Runs) (fun _ event runs => runs.step event) (runs_initial args)
    events

/-- From every reachable state, the program can go on to return 0 without any spurious wakeup,
unless it hangs: the main thread has missed the notification that nothing is pending. -/
theorem returns_unless_hangs (args : PartitionedArgs) (events : List (PartitionedMainEvent args)) :
    let state := Schedule.run step (initial args) events
    (∃ later, Schedule.Respects step NotSpurious state later ∧
      (Schedule.run step state later).main = .returned 0) ↔ ¬state.Hangs := by
  intro state
  have runs : state.Runs := runs_run args events
  constructor
  · rintro ⟨later, fine, returned⟩ hangs
    have still : (Schedule.run step state later).Runs ∧ (Schedule.run step state later).Hangs :=
      Schedule.run_invariant_of_respects
        (P := fun state : PartitionedMain args => state.Runs ∧ state.Hangs)
        (fun _ event known fine => ⟨known.1.step event, known.2.step known.1 fine⟩) ⟨runs, hangs⟩
        fine
    exact absurd (returned.symm.trans still.2.draining) nofun
  · intro alive
    obtain ⟨later, fine, status, returned⟩ := runs.exists_return (runs.heard_iff.mpr alive)
    refine ⟨later, fine, ?_⟩
    have ok := (Schedule.run_invariant (P := Runs) (fun _ event runs => runs.step event) runs
      later).proceeds.ok
    rw [returned] at ok ⊢
    rw [of_decide_eq_true ok]

/-- The program can hang: the main thread finds one order pending, a worker applies it and
notifies nobody, and then the main thread blocks. -/
theorem hangs_one_order :
    let args : PartitionedArgs :=
      { producers := 1, shards := ⟨1, by decide, by decide⟩, ordersPerProducer := 1
        queueCapacity := 1, producersPositive := by decide, ordersPositive := by decide
        queuePositive := by decide, fits := by decide }
    let sell : Draw 9950 10050 250 :=
      ⟨false, 10000, 5, 50, by decide, by decide, by decide, by decide⟩
    let produce : PartitionedMainEvent args := .producer 0 0 sell
    let work : PartitionedMainEvent args := .worker ⟨0, by decide⟩
    let events := [produce, .main] ++ List.replicate 6 produce ++ List.replicate 5 .main ++
      List.replicate 9 work ++ [.main]
    (Schedule.run step (initial args) events).Hangs := by
  intro args sell produce work events
  exact ⟨by decide +kernel, by decide +kernel, by decide +kernel, by decide +kernel⟩

end PartitionedMain

end Lob
