import Lob.PartitionedEngine.Open
import Lob.PartitionedEngine.Wakeup

/-!
# What every reachable state of a partitioned engine has settled

The mutex of `waitUntilIdle` is held by a thread that is about to release it, and the queues
that `shutdown` has passed are closed. So no thread waits for the mutex or in `pop` for longer
than others let it.
-/

namespace Lob

namespace PartitionedEngine

variable {config : PartitionedConfig} {engine : PartitionedEngine config}

/-! ### The mutex of `waitUntilIdle` -/

/-- `idle_mutex_` is held only by a thread that tests its predicate or is about to block. -/
def MutexHeld (engine : PartitionedEngine config) : Prop :=
  engine.idleMutex = true → ∃ id, engine.waiters id = .checking ∨ engine.waiters id = .sleeping

/-- A thread that is about to block or tests its predicate is not touched by `notify_all`. -/
theorem MutexHeld.notifyAll (held : engine.MutexHeld) : engine.notifyAll.MutexHeld := by
  intro locked
  obtain ⟨id, holds⟩ := held locked
  refine ⟨id, ?_⟩
  simp only [PartitionedEngine.notifyAll]
  rcases holds with checking | sleeping
  · simp [checking]
  · simp [sleeping]

theorem MutexHeld.congr {engine' : PartitionedEngine config} (held : engine.MutexHeld)
    (mutex : engine'.idleMutex = engine.idleMutex) (waiters : engine'.waiters = engine.waiters) :
    engine'.MutexHeld := by
  rw [MutexHeld, mutex, waiters]
  exact held

/-- A thread outside the mutex goes on. -/
theorem MutexHeld.walk (held : engine.MutexHeld) {id : Fin config.waiters} (point : WaiterPoint)
    (notChecking : engine.waiters id ≠ .checking) (notSleeping : engine.waiters id ≠ .sleeping) :
    (engine.setWaiter id point).MutexHeld := by
  intro locked
  obtain ⟨other, holds⟩ := held locked
  have different : other ≠ id := by
    rintro rfl
    exact holds.elim notChecking notSleeping
  refine ⟨other, ?_⟩
  rw [waiters_setWaiter, Function.update_of_ne different]
  exact holds

theorem MutexHeld.waiterStep (held : engine.MutexHeld) (id : Fin config.waiters) :
    (engine.waiterStep id).MutexHeld := by
  unfold PartitionedEngine.waiterStep
  cases point : engine.waiters id with
  | outside => exact held.walk _ (by simp [point]) (by simp [point])
  | locking =>
      dsimp only
      split
      · exact held
      · exact fun _ => ⟨id, .inl (Function.update_self _ _ _)⟩
  | checking =>
      dsimp only
      split
      · exact fun locked => absurd locked Bool.false_ne_true
      · exact fun _ => ⟨id, .inr (Function.update_self _ _ _)⟩
  | sleeping => exact fun locked => absurd locked Bool.false_ne_true
  | blocked => exact held.walk _ (by simp [point]) (by simp [point])

theorem step_idleMutex (engine : PartitionedEngine config) (event : PartitionedEvent config) :
    (engine.step event).idleMutex = engine.idleMutex ∨ ∃ id, event = .waiter id := by
  cases event with
  | waiter id => exact .inr ⟨id, rfl⟩
  | worker id =>
      have acts := engine.workerStep_acts id
      rw [step]
      generalize engine.workerStep id = next at acts ⊢
      cases acts <;> exact .inl rfl
  | producer id call =>
      rw [step]
      unfold producerStep insert
      dsimp only
      repeat' split
      all_goals exact .inl rfl
  | closer id =>
      rw [step]
      unfold closerStep
      dsimp only
      repeat' split
      all_goals exact .inl rfl

theorem MutexHeld.step (held : engine.MutexHeld) (event : PartitionedEvent config) :
    (engine.step event).MutexHeld := by
  rcases engine.step_idleMutex event with mutex | ⟨id, rfl⟩
  · rcases engine.step_waiters event with waiters | waiters | ⟨id, rfl⟩
    · exact held.congr mutex waiters
    · exact held.notifyAll.congr mutex waiters
    · exact held.waiterStep id
  · exact held.waiterStep id

/-! ### The queues that `shutdown` has closed -/

/-- `shutdown` has closed the queue with this number. -/
def closedBy : CloserPoint → Nat → Prop
  | .outside, _ => False
  | .closing shard, index => index < shard
  | _, _ => True

/-- What `shutdown` has closed is closed. -/
def Closes (engine : PartitionedEngine config) : Prop :=
  ∀ closer (id : config.ShardId), closedBy (engine.closers closer) id.val →
    (engine.shards id).queue.closed = true

/-- No queue is opened again. -/
theorem step_closed (engine : PartitionedEngine config) (event : PartitionedEvent config)
    {id : config.ShardId} (closed : (engine.shards id).queue.closed = true) :
    ((engine.step event).shards id).queue.closed = true := by
  cases event with
  | producer producer call =>
      rcases engine.producerStep_shards producer call id with same | ⟨_, _, _, inserts, _⟩
      · exact (congrArg (·.queue.closed) same).trans closed
      · exact absurd (inserts.1.symm.trans closed) Bool.false_ne_true
  | worker worker => exact (engine.workerStep_closed worker id).trans closed
  | waiter waiter =>
      exact (congrArg (fun shards => (shards id).queue.closed)
        (engine.waiterStep_shards waiter)).trans closed
  | closer closer =>
      rcases engine.closerStep_shards closer id with same | closes
      · exact (congrArg (·.queue.closed) same).trans closed
      · exact congrArg (·.queue.closed) closes

/-- A closer moves alone, and what it then counts as closed is closed. -/
theorem Closes.closerStep (closes : engine.Closes) (closer : Fin config.closers) :
    ∃ point, (engine.closerStep closer).closers = Function.update engine.closers closer point ∧
      ∀ id : config.ShardId, closedBy point id.val →
        ((engine.closerStep closer).shards id).queue.closed = true := by
  have stays := (Function.update_eq_self closer engine.closers).symm
  have before := closes closer
  have kept (id : config.ShardId) (closed : (engine.shards id).queue.closed = true) :
      ((engine.closerStep closer).shards id).queue.closed = true :=
    engine.step_closed (.closer closer) closed
  unfold PartitionedEngine.closerStep at kept ⊢
  cases point : engine.closers closer with
  | outside =>
      dsimp only
      split
      · exact ⟨_, rfl, fun id none => absurd none (Nat.not_lt_zero _)⟩
      · exact ⟨_, stays, by rw [point]; exact fun _ => False.elim⟩
  | closing index =>
      simp only [point] at before kept ⊢
      split
      · rename_i inside
        refine ⟨_, rfl, fun id within => ?_⟩
        rcases Nat.lt_succ_iff_lt_or_eq.mp within with earlier | same
        · simpa only [inside, dite_true] using kept id (before id earlier)
        · have here : id = ⟨index, inside⟩ := Fin.ext same
          simp [here, setCloser, MPMCQueue.close]
      · rename_i outside
        exact ⟨_, rfl, fun id _ => before id (lt_of_lt_of_le id.isLt (Nat.le_of_not_lt outside))⟩
  | joining index =>
      rw [point] at before
      dsimp only
      split
      · split
        · exact ⟨_, rfl, before⟩
        · exact ⟨_, stays, fun id _ => before id trivial⟩
      · exact ⟨_, rfl, before⟩
  | notifying =>
      rw [point] at before
      exact ⟨_, rfl, before⟩
  | finished =>
      rw [point] at before
      exact ⟨_, stays, fun id _ => before id trivial⟩

theorem Closes.step (closes : engine.Closes) (event : PartitionedEvent config) :
    (engine.step event).Closes := by
  intro closer id closed
  cases event with
  | producer producer call =>
      rw [PartitionedEngine.step, producerStep_closers] at closed
      exact engine.step_closed _ (closes closer id closed)
  | worker worker =>
      rw [PartitionedEngine.step, workerStep_closers] at closed
      exact engine.step_closed _ (closes closer id closed)
  | waiter waiter =>
      rw [PartitionedEngine.step, waiterStep_closers] at closed
      exact engine.step_closed _ (closes closer id closed)
  | closer mover =>
      obtain ⟨point, changed, known⟩ := closes.closerStep mover
      rw [PartitionedEngine.step, changed] at closed
      by_cases here : closer = mover
      · rw [here, Function.update_self] at closed
        exact known id closed
      · rw [Function.update_of_ne here] at closed
        exact engine.step_closed _ (closes closer id closed)

/-- What holds in every reachable state of the engine, besides the balance of its commands. -/
structure Settles (engine : PartitionedEngine config) : Prop where
  mutex : engine.MutexHeld
  closes : engine.Closes
  closing : engine.Closing
  sequential : engine.Sequential
  counts : engine.Counts

theorem Reachable.settles (reachable : engine.Reachable) : engine.Settles := by
  obtain ⟨events, rfl⟩ := reachable
  refine ⟨?_, ?_, ?_, sequential_run events, pending_eq_inFlight config events⟩
  · exact Schedule.run_invariant (P := MutexHeld) (fun _ event known => known.step event)
      (fun locked => absurd locked Bool.false_ne_true) events
  · exact Schedule.run_invariant (P := Closes) (fun _ event known => known.step event)
      (fun _ _ => False.elim) events
  · exact Schedule.run_invariant (P := Closing) (fun _ event known => known.step event)
      (closing_initial config) events

end PartitionedEngine

end Lob
