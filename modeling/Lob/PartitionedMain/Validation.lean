import Lob.PartitionedMain.Orders

/-!
# The validation of `partitioned_matching_main`

Whatever the producers draw and however the threads interleave, the program validates its own
run and returns zero. After the joins the queues have taken the orders of all producers, and
once `waitUntilIdle` has returned nothing is in flight any more, so the statistics that the
program reads afterwards do not change under it.
-/

namespace Lob

namespace PartitionedMainPoint

/-- How many producers the main thread has joined. -/
def joined (producers : Nat) : PartitionedMainPoint → Nat
  | .gathering => 0
  | .joining index => index
  | _ => producers

/-- The main thread has not called `shutdown`. -/
def beforeClosing : PartitionedMainPoint → Bool
  | .closing _ => false
  | .returned _ => false
  | _ => true

/-- `waitUntilIdle` has returned. -/
def settled : PartitionedMainPoint → Bool
  | .gathering => false
  | .joining _ => false
  | .draining => false
  | _ => true

/-- The statistics were printed. -/
def hasRead : PartitionedMainPoint → Bool
  | .reading => false
  | point => point.settled

/-- Nothing was found wrong so far. -/
def ok : PartitionedMainPoint → Bool
  | .validating _ ok => ok
  | .closing ok => ok
  | .returned status => status = 0
  | _ => true

end PartitionedMainPoint

namespace PartitionedMain

variable {args : PartitionedArgs} {state : PartitionedMain args}

/-- How far the program has come, and that nothing went wrong. -/
structure Proceeds (state : PartitionedMain args) : Prop where
  reachable : state.engine.Reachable
  drives : state.Drives
  opened : state.main.beforeClosing = true → state.engine.Open
  joined : ∀ id : Fin args.producers, id.val < state.main.joined args.producers →
    state.drivers id = .returned
  quiet : state.main.settled = true → state.engine.Quiet
  ok : state.main.ok = true
  printed : state.main.hasRead = true → ∃ stats, state.printed = some stats ∧ Adds args stats

theorem proceeds_initial (args : PartitionedArgs) : (initial args).Proceeds where
  reachable := ⟨[], rfl⟩
  drives := drives_initial args
  opened _ := ⟨rfl, fun _ => rfl⟩
  joined _ before := absurd before (Nat.not_lt_zero _)
  quiet settled := absurd settled Bool.false_ne_true
  ok := rfl
  printed read := absurd read Bool.false_ne_true

theorem Proceeds.returned (proceeds : state.Proceeds) (settled : state.main.settled = true)
    (id : Fin args.producers) : state.drivers id = .returned := by
  refine proceeds.joined id ?_
  cases point : state.main with
  | gathering => simp [point, PartitionedMainPoint.settled] at settled
  | joining index => simp [point, PartitionedMainPoint.settled] at settled
  | _ => exact id.isLt

theorem Proceeds.ended (proceeds : state.Proceeds) (settled : state.main.settled = true) :
    state.Ended :=
  ⟨proceeds.reachable, proceeds.drives, proceeds.returned settled, proceeds.quiet settled⟩

theorem Proceeds.workerStep (proceeds : state.Proceeds) (worker : args.config.ShardId) :
    Proceeds { state with engine := state.engine.workerStep worker } where
  reachable := proceeds.reachable.step (.worker worker)
  drives := proceeds.drives.frame rfl (state.engine.workerStep_sameCalls worker) rfl
  opened before := (proceeds.opened before).workerStep worker
  joined := proceeds.joined
  quiet settled := (proceeds.quiet settled).workerStep worker
  ok := proceeds.ok
  printed := proceeds.printed

theorem Proceeds.producerStep (proceeds : state.Proceeds) (id : Fin args.producers)
    (symbol : Fin 8) (draw : Draw 9950 10050 250) :
    (state.producerStep id symbol draw).Proceeds := by
  by_cases returned : state.drivers id = .returned
  · have same : state.producerStep id symbol draw = state := by
      simp only [PartitionedMain.producerStep, returned]
    rw [same]
    exact proceeds
  · -- a producer that has not returned was not joined, so the engine is open
    have unsettled : state.main.settled = false := by
      by_contra settled
      exact returned (proceeds.returned (Bool.not_eq_false _ ▸ settled) id)
    have before : state.main.beforeClosing = true := by
      cases point : state.main with
      | closing ok => simp [point, PartitionedMainPoint.settled] at unsettled
      | returned status => simp [point, PartitionedMainPoint.settled] at unsettled
      | _ => rfl
    have opened := proceeds.opened before
    have moves := producerStep_moves opened id (proceeds.drives.carries id) symbol draw
    obtain ⟨others, main, printed⟩ := moves.frame
    refine ⟨producerStep_reachable proceeds.reachable id symbol draw, proceeds.drives.moves moves,
      fun _ => moves.opened opened, fun other joined => ?_, ?_, ?_, ?_⟩
    · rw [main] at joined
      rw [others other (fun same => returned (same ▸ proceeds.joined other joined))]
      exact proceeds.joined other joined
    · rw [main, unsettled]
      exact nofun
    · rw [main]
      exact proceeds.ok
    · rw [main, printed]
      exact proceeds.printed

/-- The main thread goes on without a look at the engine. -/
theorem Proceeds.go (proceeds : state.Proceeds) {point : PartitionedMainPoint} {start : Bool}
    (opened : point.beforeClosing = true → state.main.beforeClosing = true)
    (joined : ∀ id : Fin args.producers, id.val < point.joined args.producers →
      state.drivers id = .returned)
    (quiet : point.settled = true → state.main.settled = true)
    (printed : point.hasRead = true → state.main.hasRead = true) (ok : point.ok = true) :
    Proceeds { state with start, main := point } where
  reachable := proceeds.reachable
  drives := proceeds.drives.frame rfl (PartitionedEngine.sameCalls_refl _) rfl
  opened before := proceeds.opened (opened before)
  joined := joined
  quiet settled := proceeds.quiet (quiet settled)
  ok := ok
  printed read := proceeds.printed (printed read)

theorem Proceeds.drain (proceeds : state.Proceeds) (draining : state.main = .draining) :
    state.mainStep.Proceeds := by
  have returned (id : Fin args.producers) : state.drivers id = .returned :=
    proceeds.joined id (by rw [draining]; exact id.isLt)
  have opened := proceeds.opened (by rw [draining]; rfl)
  simp only [PartitionedMain.mainStep, draining]
  refine ⟨proceeds.reachable.step (.waiter args.waiter),
    proceeds.drives.frame rfl (state.engine.waiterStep_sameCalls args.waiter) rfl,
    fun _ => opened.waiterStep args.waiter, fun id _ => returned id, fun settled => ?_, ?_,
    fun read => ?_⟩
  · dsimp only at settled
    split at settled
    · rename_i left
      have zero : state.engine.pending = 0 :=
        PartitionedEngine.pending_of_return left.1 (show (state.engine.step
          (.waiter args.waiter)).waiters args.waiter = .outside from left.2)
      refine ⟨fun id => ?_, fun id => ?_⟩
      · have idle := proceeds.drives.carries id
        rw [returned] at idle
        rw [(state.engine.waiterStep_sameCalls args.waiter).producers, idle]
        rfl
      · obtain ⟨events, reached⟩ := proceeds.reachable
        have counts : state.engine.Counts :=
          reached ▸ PartitionedEngine.pending_eq_inFlight _ events
        rw [PartitionedEngine.Counts, zero] at counts
        rw [state.engine.waiterStep_shards]
        exact (PartitionedEngine.inFlight_eq_zero_iff.mp
          (Int.ofNat_eq_zero.mp counts.symm)).2 id
    · exact absurd settled Bool.false_ne_true
  · dsimp only
    split <;> rfl
  · dsimp only at read
    split at read <;> exact absurd read Bool.false_ne_true

theorem Proceeds.read (proceeds : state.Proceeds) (reading : state.main = .reading) :
    state.mainStep.Proceeds := by
  have ended := proceeds.ended (by rw [reading]; rfl)
  have adds := ended.adds
  simp only [PartitionedMain.mainStep, reading]
  refine ⟨proceeds.reachable, proceeds.drives.frame rfl (PartitionedEngine.sameCalls_refl _) rfl,
    fun _ => proceeds.opened (by rw [reading]; rfl), fun id _ => ended.returned id,
    fun _ => ended.quiet, ?_, ?_⟩
  · simp [PartitionedMainPoint.ok, statsOk, proceeds.drives.ingress, adds.submitted,
      adds.processed, adds.pending]
  · exact fun _ => ⟨_, rfl, adds⟩

theorem Proceeds.close (proceeds : state.Proceeds) {ok : Bool}
    (closing : state.main = .closing ok) : state.mainStep.Proceeds := by
  have ended := proceeds.ended (by rw [closing]; rfl)
  have fine := proceeds.ok
  rw [closing] at fine
  obtain rfl : ok = true := fine
  simp only [PartitionedMain.mainStep, closing]
  refine ⟨proceeds.reachable.step (.closer args.closer),
    proceeds.drives.frame rfl (state.engine.closerStep_sameCalls args.closer) rfl, fun before => ?_,
    fun id _ => ended.returned id, fun _ => ended.quiet.closerStep args.closer, ?_,
    fun _ => proceeds.printed (by rw [closing]; rfl)⟩
  · dsimp only at before
    split at before <;> exact absurd before Bool.false_ne_true
  · dsimp only
    split <;> rfl

theorem Proceeds.mainStep (proceeds : state.Proceeds) : state.mainStep.Proceeds := by
  cases point : state.main with
  | draining => exact proceeds.drain point
  | reading => exact proceeds.read point
  | closing ok => exact proceeds.close point
  | gathering =>
      simp only [PartitionedMain.mainStep, point]
      split
      · exact proceeds.go (by simp [point, PartitionedMainPoint.beforeClosing])
          (fun _ before => absurd before (Nat.not_lt_zero _)) nofun nofun rfl
      · exact proceeds
  | joining index =>
      have joined := proceeds.joined
      rw [point] at joined
      simp only [PartitionedMain.mainStep, point]
      split
      · split
        · rename_i inside returned
          refine proceeds.go (by simp [point, PartitionedMainPoint.beforeClosing]) ?_ nofun nofun
            rfl
          intro id before
          by_cases last : id.val = index
          · exact (Fin.ext last : id = ⟨index, inside⟩) ▸ returned
          · exact joined id (by simp only [PartitionedMainPoint.joined] at before ⊢; omega)
        · exact proceeds
      · rename_i all
        refine proceeds.go (by simp [point, PartitionedMainPoint.beforeClosing]) ?_ nofun nofun rfl
        intro id _
        exact joined id (by have := id.isLt; simp only [PartitionedMainPoint.joined]; omega)
  | validating symbols ok =>
      have returned := proceeds.returned (by rw [point]; rfl)
      have fine := proceeds.ok
      rw [point] at fine
      cases symbols with
      | nil =>
          simp only [PartitionedMain.mainStep, point]
          exact proceeds.go nofun (fun id _ => returned id) (by rw [point]; exact fun _ => rfl)
            (by rw [point]; exact fun _ => rfl) fine
      | cons symbol symbols =>
          simp only [PartitionedMain.mainStep, point]
          refine proceeds.go (by rw [point]; exact fun _ => rfl) (fun id _ => returned id)
            (by rw [point]; exact fun _ => rfl) (by rw [point]; exact fun _ => rfl) ?_
          have ended := proceeds.ended (by rw [point]; rfl)
          exact (Bool.and_eq_true _ _).mpr ⟨fine, ended.validate symbol⟩
  | returned status =>
      simp only [PartitionedMain.mainStep, point]
      exact proceeds

theorem Proceeds.step (proceeds : state.Proceeds) (event : PartitionedMainEvent args) :
    (state.step event).Proceeds := by
  cases event with
  | main => exact proceeds.mainStep
  | producer id symbol draw => exact proceeds.producerStep id symbol draw
  | worker id => exact proceeds.workerStep id

theorem proceeds_run (events : List (PartitionedMainEvent args)) :
    (Schedule.run step (initial args) events).Proceeds :=
  Schedule.run_invariant (fun _ event known => known.step event) (proceeds_initial args) events

/-- What the program has done when it returns. -/
structure Validated (state : PartitionedMain args) (status : Nat) : Prop where
  passes : status = 0
  /-- every order of every producer was applied exactly once -/
  once : state.appliedIds.Perm args.allIds
  /-- an order is rejected only for its own flag or its own time in force -/
  answers : ∀ entry ∈ state.engine.applied,
    entry.command.command.Expects entry.result.report
  stats : ∃ stats, state.printed = some stats ∧ Adds args stats

/-- The program validates itself. However its threads interleave and whatever its producers
draw, when it returns its status is zero, and the statistics that it has printed add up: all
orders were submitted and processed, and without `--advanced-orders` none was rejected. -/
theorem validation_passes (args : PartitionedArgs) (events : List (PartitionedMainEvent args))
    {status : Nat} (returns : (Schedule.run step (initial args) events).main = .returned status) :
    (Schedule.run step (initial args) events).Validated status := by
  have proceeds := proceeds_run events
  have ended := proceeds.ended (by rw [returns]; rfl)
  have fine := proceeds.ok
  rw [returns] at fine
  exact ⟨of_decide_eq_true fine, ended.appliedIds_perm, fun _ => ended.expects,
    proceeds.printed (by rw [returns]; rfl)⟩

/-- One producer with two orders, of which the second cannot be filled at once. -/
theorem validation_passes_two_orders :
    let args : PartitionedArgs :=
      { producers := 1, shards := ⟨1, by decide, by decide⟩, ordersPerProducer := 2
        queueCapacity := 1, advancedOrders := true, producersPositive := by decide
        ordersPositive := by decide, queuePositive := by decide, fits := by decide }
    let sell : Draw 9950 10050 250 :=
      ⟨false, 10000, 5, 50, by decide, by decide, by decide, by decide⟩
    let fok : Draw 9950 10050 250 :=
      ⟨true, 10000, 9, 17, by decide, by decide, by decide, by decide⟩
    let produce (draw : Draw 9950 10050 250) : PartitionedMainEvent args := .producer 0 0 draw
    let work : PartitionedMainEvent args := .worker ⟨0, by decide⟩
    let events := [produce sell, .main] ++ List.replicate 5 (produce sell) ++
      List.replicate 9 work ++ List.replicate 5 (produce fok) ++ List.replicate 9 work ++
      List.replicate 18 .main ++ [work] ++ List.replicate 3 .main
    (Schedule.run step (initial args) events).Validated 0 := by
  intro args sell fok produce work events
  exact validation_passes args events (by decide +kernel)

end PartitionedMain

end Lob
