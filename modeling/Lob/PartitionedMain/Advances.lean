import Lob.PartitionedEngine.Settles
import Lob.PartitionedMain.Ranks

/-!
# The steps that help `partitioned_matching_main`

A worker that has something to do, a producer thread that does not wait and a main thread whose
wait is over bring the program closer to its end.
-/

namespace Lob

namespace PartitionedMain

variable {args : PartitionedArgs} {state next : PartitionedMain args}
variable {engine : PartitionedEngine args.config}

/-- The other threads do not take the main thread back. -/
theorem mainRank_le (main : next.main = state.main)
    (waiters : next.engine.waiters = state.engine.waiters ∨
      next.engine.waiters = state.engine.notifyAll.waiters)
    (closers : next.engine.closers = state.engine.closers) : next.mainRank ≤ state.mainRank := by
  have point : (next.engine.waiters args.waiter).rank ≤
      (state.engine.waiters args.waiter).rank := by
    rcases waiters with same | notified
    · rw [same]
    · rw [notified]
      simp only [PartitionedEngine.notifyAll]
      split
      · rename_i blocked
        rw [blocked]
        decide
      · exact Nat.le_refl _
  simp only [mainRank, main, closers]
  cases state.main with
  | draining => exact Nat.add_le_add_left point _
  | _ => exact Nat.le_refl _

/-- A worker goes on with what it has in its hands. -/
theorem closer_setWorker {shard : Shard} {old point : WorkerPoint} (here : shard.worker = old)
    (commands : point.unapplied = old.unapplied) (less : point.rank < old.rank) :
    { shard with worker := point }.Closer shard := by
  subst here
  refine .inr ⟨?_, Nat.add_lt_add_left less _⟩
  rw [Shard.unapplied, Shard.unapplied, commands]

/-- A worker that has something to do comes closer to the end of it. -/
theorem workerStep_closer (settles : engine.Settles) {id : args.config.ShardId}
    (running : (engine.shards id).worker ≠ .exited)
    (work : (engine.shards id).worker = .popping →
      (engine.shards id).queue.buffer ≠ [] ∨ (engine.shards id).queue.closed = true) :
    ∃ shard, (engine.workerStep id).shards = Function.update engine.shards id shard ∧
      shard.Closer (engine.shards id) := by
  unfold PartitionedEngine.workerStep
  -- only `popping` and `popped` do more than to move the worker on
  cases point : (engine.shards id).worker with
  | popping =>
      cases items : (engine.shards id).queue.buffer with
      | nil =>
          have closed := (work point).resolve_left (fun more => more items)
          have drained : (engine.shards id).queue.pop = some ((engine.shards id).queue, none) := by
            simp [MPMCQueue.pop, items, closed]
          simp only [drained]
          exact ⟨_, rfl, closer_setWorker point rfl (by decide)⟩
      | cons command rest =>
          have popped : (engine.shards id).queue.pop =
              some ({ (engine.shards id).queue with buffer := rest }, some command) := by
            simp [MPMCQueue.pop, items]
          simp only [popped]
          refine ⟨_, rfl, .inr ⟨?_, ?_⟩⟩
          · simp [Shard.unapplied, WorkerPoint.unapplied, items, point]
          · simp [Shard.rank, WorkerPoint.rank, items, point]
  | exited => exact absurd point running
  | faulted => exact absurd point (settles.sequential id).running
  | popped command =>
      obtain ⟨response, applied, _⟩ :=
        ((settles.sequential id).consistent command.symbol).apply command.command []
      refine ⟨_, rfl, .inl ?_⟩
      simp [Shard.process, applied, Shard.unapplied, WorkerPoint.unapplied, point]
  | recording entry trades =>
      cases trades with
      | nil => exact ⟨_, rfl, closer_setWorker point rfl (Nat.lt_succ_self _)⟩
      | cons trade trades => exact ⟨_, rfl, closer_setWorker point rfl (Nat.lt_succ_self _)⟩
  | countingOutcome entry =>
      dsimp only
      split
      · exact ⟨_, rfl, closer_setWorker point rfl (Nat.lt_succ_self _)⟩
      · exact ⟨_, rfl, closer_setWorker point rfl (Nat.lt_succ_self _)⟩
  | countingTrades entry => exact ⟨_, rfl, closer_setWorker point rfl (Nat.lt_succ_self _)⟩
  | timing entry => exact ⟨_, rfl, closer_setWorker point rfl (Nat.lt_succ_self _)⟩
  | completing entry =>
      refine ⟨_, rfl, .inr ⟨?_, ?_⟩⟩
      · simp [Shard.unapplied, Shard.complete, WorkerPoint.unapplied, point]
      · simp [Shard.rank, Shard.complete, WorkerPoint.rank, point]
  | finishing =>
      dsimp only
      split
      · exact ⟨_, rfl, closer_setWorker point rfl (Nat.lt_succ_self _)⟩
      · exact ⟨_, rfl, closer_setWorker point rfl (by decide)⟩
  | notifying => exact ⟨_, rfl, closer_setWorker point rfl (Nat.lt_succ_self _)⟩

theorem advances_worker (settles : state.engine.Settles) {id : args.config.ShardId}
    (running : (state.engine.shards id).worker ≠ .exited)
    (work : (state.engine.shards id).worker = .popping →
      (state.engine.shards id).queue.buffer ≠ [] ∨
        (state.engine.shards id).queue.closed = true) :
    state.Advances (state.step (.worker id)) := by
  obtain ⟨shard, shards, closer⟩ := workerStep_closer settles running work
  refine advances_shard rfl (state.engine.workerStep_sameCalls id).producers shards ?_ closer
  refine mainRank_le rfl ?_ (state.engine.workerStep_closers id)
  rcases state.engine.step_waiters (.worker id) with same | notified | ⟨_, wrong⟩
  · exact .inl same
  · exact .inr notified
  · exact absurd wrong nofun

/-- Every step of a producer thread that does not wait. -/
theorem DriverMoves.advances {id : Fin args.producers} (moves : state.DriverMoves id next)
    (carries : args.Carries id (state.drivers id) (state.engine.producers id))
    (ready : ¬state.Waits id) : state.Advances next := by
  have sameCall := (Function.update_eq_self id state.engine.producers).symm
  have sameDriver := (Function.update_eq_self id state.drivers).symm
  cases moves with
  | stays waits => exact absurd waits ready
  | readies starting =>
      refine advances_driver rfl sameCall rfl rfl (by rw [sent, starting]; rfl) ?_
      rw [starting]
      exact Nat.lt_succ_self _
  | begins waiting _ =>
      refine advances_driver rfl sameCall rfl rfl (by rw [sent, waiting]; rfl) ?_
      rw [waiting]
      exact Nat.lt_succ_self _
  | calls generating more _ =>
      refine advances_driver rfl rfl rfl rfl (by rw [sent, generating]; rfl) ?_
      rw [generating]
      exact Nat.lt_succ_self _
  | @counts i command enqueueing admitted =>
      rw [enqueueing] at carries
      refine advances_driver sameDriver rfl rfl rfl (by rw [sent, enqueueing, admitted]; rfl) ?_
      have more : 0 < args.ordersPerProducer - i := Nat.sub_pos_of_lt carries.1
      rw [enqueueing, admitted]
      simp only [PartitionedArgs.driverRank]
      omega
  | inserts enqueueing counted inserts =>
      rw [enqueueing] at carries
      obtain ⟨_, _, rfl⟩ := inserts
      exact advances_handOver enqueueing counted carries.1 rfl rfl rfl
        (List.length_append) rfl rfl
  | @submits i command enqueueing inserted =>
      rw [enqueueing] at carries
      refine advances_driver rfl rfl rfl rfl (by rw [sent, enqueueing, inserted]; rfl) ?_
      have more : i < args.ordersPerProducer := carries.1
      rw [enqueueing, inserted]
      simp only [PartitionedArgs.driverRank]
      omega
  | returns generating done =>
      rw [generating] at carries
      refine advances_driver rfl sameCall rfl rfl ?_ ?_
      · rw [sent, generating]
        exact Nat.le_antisymm (Nat.not_lt.mp done) carries.2
      · rw [generating]
        exact Nat.succ_pos _

/-- A thread in `waitUntilIdle` that has not to wait comes closer to its return. -/
theorem waiterStep_closer {id : Fin args.config.waiters} (notified : engine.waiters id ≠ .blocked)
    (free : engine.waiters id = .locking → engine.idleMutex = false)
    (idle : engine.waiters id = .checking → engine.pending = 0) :
    engine.waiters id ≠ .outside ∧ (engine.waiterStep id).waiters id = .outside ∨
      ((engine.waiterStep id).waiters id).rank < (engine.waiters id).rank := by
  unfold PartitionedEngine.waiterStep
  cases point : engine.waiters id with
  | outside => exact .inr (by simp [WaiterPoint.rank])
  | locking => exact .inr (by simp [free point, WaiterPoint.rank])
  | checking => exact .inl (by simp [idle point])
  | sleeping => exact .inr (by simp [WaiterPoint.rank])
  | blocked => exact absurd point notified

/-- `shutdown` goes on unless it waits for a worker to exit. -/
theorem closerStep_closer {id : Fin args.config.closers}
    (exited : ∀ index, engine.closers id = .joining index →
      ∀ inside : index < args.config.shardCount.value.toNat,
        (engine.shards ⟨index, inside⟩).worker = .exited)
    (first : engine.closers id = .outside → engine.accepting = true)
    (unfinished : engine.closers id ≠ .finished) :
    ((engine.closerStep id).closers id).rank args.config.shardCount.value.toNat <
      (engine.closers id).rank args.config.shardCount.value.toNat := by
  unfold PartitionedEngine.closerStep
  cases point : engine.closers id with
  | outside =>
      simp only [first point, if_true, PartitionedEngine.setCloser, Function.update_self,
        CloserPoint.rank]
      omega
  | closing index =>
      dsimp only
      split
      · simp only [PartitionedEngine.setCloser, Function.update_self, CloserPoint.rank]
        omega
      · simp only [PartitionedEngine.setCloser, Function.update_self, CloserPoint.rank]
        omega
  | joining index =>
      dsimp only
      split
      · rename_i inside
        simp only [exited index point inside, if_true, PartitionedEngine.setCloser,
          Function.update_self, CloserPoint.rank]
        omega
      · simp only [PartitionedEngine.setCloser, Function.update_self, CloserPoint.rank]
        omega
  | notifying =>
      simp only [PartitionedEngine.setCloser, Function.update_self, CloserPoint.rank]
      omega
  | finished => exact absurd point unfinished

/-- What the main thread waits for has happened. -/
structure MainReady (state : PartitionedMain args) : Prop where
  gathered : state.main = .gathering → state.ready = args.producers
  returned : ∀ index, state.main = .joining index → ∀ inside : index < args.producers,
    state.drivers ⟨index, inside⟩ = .returned
  notified : state.main = .draining → state.engine.waiters args.waiter ≠ .blocked
  free : state.main = .draining → state.engine.waiters args.waiter = .locking →
    state.engine.idleMutex = false
  idle : state.main = .draining → state.engine.waiters args.waiter = .checking →
    state.engine.pending = 0
  exited : ∀ ok, state.main = .closing ok → ∀ index,
    state.engine.closers args.closer = .joining index →
      ∀ inside : index < args.config.shardCount.value.toNat,
        (state.engine.shards ⟨index, inside⟩).worker = .exited
  running : ∀ status, state.main ≠ .returned status

/-- `shutdown` closes queues; it takes nothing out of them. -/
theorem closerStep_sameRanks (engine : PartitionedEngine args.config)
    (closer : Fin args.config.closers) (id : args.config.ShardId) :
    ((engine.closerStep closer).shards id).unapplied = (engine.shards id).unapplied ∧
      ((engine.closerStep closer).shards id).rank = (engine.shards id).rank := by
  rcases engine.closerStep_shards closer id with same | closes
  · rw [same]
    exact ⟨rfl, rfl⟩
  · rw [closes]
    exact ⟨rfl, rfl⟩

theorem advances_closing (ready : state.MainReady) {ok : Bool}
    (closing : state.main = .closing ok) : state.Advances state.mainStep := by
  have producers := (state.engine.closerStep_sameCalls args.closer).producers
  have shards := closerStep_sameRanks state.engine args.closer
  by_cases leaves : (state.engine.closerStep args.closer).closers args.closer = .finished ∨
      state.engine.closers args.closer = .outside ∧ state.engine.accepting = false
  · simp only [mainStep, closing, if_pos leaves]
    refine advances_main rfl producers shards ?_
    simp only [mainRank, closing]
    omega
  · obtain ⟨unfinished, first⟩ := not_or.mp leaves
    have closer := closerStep_closer (ready.exited ok closing)
      (fun outside => Bool.not_eq_false _ ▸ fun late => first ⟨outside, late⟩)
      (fun finished => unfinished (by simp only [PartitionedEngine.closerStep, finished]))
    simp only [mainStep, closing, if_neg leaves]
    refine advances_main rfl producers shards ?_
    simp only [mainRank, closing]
    exact Nat.add_lt_add_left closer 1

theorem advances_draining (ready : state.MainReady) (draining : state.main = .draining) :
    state.Advances state.mainStep := by
  have producers := (state.engine.waiterStep_sameCalls args.waiter).producers
  have shards (id : args.config.ShardId) :
      ((state.engine.waiterStep args.waiter).shards id).unapplied =
          (state.engine.shards id).unapplied ∧
        ((state.engine.waiterStep args.waiter).shards id).rank = (state.engine.shards id).rank := by
    rw [state.engine.waiterStep_shards]
    exact ⟨rfl, rfl⟩
  have closer := waiterStep_closer (ready.notified draining) (ready.free draining)
    (ready.idle draining)
  by_cases leaves : state.engine.waiters args.waiter ≠ .outside ∧
      (state.engine.waiterStep args.waiter).waiters args.waiter = .outside
  · simp only [mainStep, draining, if_pos leaves]
    refine advances_main rfl producers shards ?_
    have inside : 0 < (state.engine.waiters args.waiter).rank := by
      cases state.engine.waiters args.waiter <;> decide
    simp only [mainRank, draining]
    omega
  · simp only [mainStep, draining, if_neg leaves]
    refine advances_main rfl producers shards ?_
    simp only [mainRank, draining]
    exact Nat.add_lt_add_left (closer.resolve_left leaves) _

theorem advances_mainStep (ready : state.MainReady) : state.Advances (state.step .main) := by
  have same (id : args.config.ShardId) :
      (state.engine.shards id).unapplied = (state.engine.shards id).unapplied ∧
        (state.engine.shards id).rank = (state.engine.shards id).rank := ⟨rfl, rfl⟩
  rw [step]
  cases point : state.main with
  | gathering =>
      simp only [mainStep, point, if_pos (ready.gathered point)]
      refine advances_main rfl rfl same ?_
      simp only [mainRank, point]
      omega
  | joining index =>
      simp only [mainStep, point]
      split
      · rename_i inside
        rw [if_pos (ready.returned index point inside)]
        refine advances_main rfl rfl same ?_
        simp only [mainRank, point]
        omega
      · refine advances_main rfl rfl same ?_
        have near : (state.engine.waiters args.waiter).rank ≤ 4 := by
          cases state.engine.waiters args.waiter <;> decide
        simp only [mainRank, point]
        omega
  | draining =>
      exact advances_draining ready point
  | reading =>
      simp only [mainStep, point]
      refine advances_main rfl rfl same ?_
      simp only [mainRank, point, Vector.length_toList]
      omega
  | validating symbols ok =>
      cases symbols with
      | nil =>
          simp only [mainStep, point]
          refine advances_main rfl rfl same ?_
          have far := CloserPoint.rank_le args.shards.value.toNat
            (state.engine.closers args.closer)
          simp only [mainRank, point, List.length_nil]
          omega
      | cons symbol symbols =>
          simp only [mainStep, point]
          refine advances_main rfl rfl same ?_
          simp only [mainRank, point, List.length_cons]
          omega
  | closing ok => exact advances_closing ready point
  | returned status => exact absurd point (ready.running status)

end PartitionedMain

end Lob
