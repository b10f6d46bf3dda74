import Lob.Library.Schedule
import Lob.Library.Waiting
import Lob.PartitionedEngine.Worker

/-!
# What `pending_` counts

A command is in flight from its producer's increment of `pending_` to the matching
`finishOnePending`: in the hands of its producer, in a queue, or in the hands of a worker.
At every point of every run `pending_` is the number of commands in flight, so it never
falls below zero.
-/

namespace Lob

variable {point : WorkerPoint}

/-- The commands that a producer has counted but not passed on. -/
@[simp] def ProducerPoint.inFlight : ProducerPoint → Nat
  | .counted _ _ => 1
  | .refused _ => 1
  | _ => 0

/-- The commands in the hands of a worker. -/
@[simp] def WorkerPoint.inFlight : WorkerPoint → Nat
  | .popped _ => 1
  | .recording _ _ => 1
  | .countingOutcome _ => 1
  | .countingTrades _ => 1
  | .timing _ => 1
  | .completing _ => 1
  | .finishing => 1
  | .faulted => 1
  | _ => 0

theorem WorkerPoint.inFlight_of_undelivered {entry : ProcessedCommand}
    (carries : point.undelivered = [entry]) : point.inFlight = 1 := by
  cases point with
  | popping => contradiction
  | notifying => contradiction
  | exited => contradiction
  | _ => rfl

theorem WorkerPoint.unapplied_of_inFlight (free : point.inFlight = 0) :
    point.unapplied = [] := by
  cases point with
  | popped command => contradiction
  | _ => rfl

theorem WorkerPoint.undelivered_of_inFlight (free : point.inFlight = 0) :
    point.undelivered = [] := by
  cases point with
  | popping => rfl
  | notifying => rfl
  | exited => rfl
  | _ => contradiction

/-- The commands in a queue and in the hands of its worker. -/
def Shard.inFlight (shard : Shard) : Nat := shard.queue.buffer.length + shard.worker.inFlight

theorem Shard.inFlight_eq_zero_iff {shard : Shard} :
    shard.inFlight = 0 ↔ shard.queue.buffer = [] ∧ shard.worker.inFlight = 0 := by
  rw [Shard.inFlight, Nat.add_eq_zero_iff, List.length_eq_zero_iff]

namespace PartitionedEngine

variable {config : PartitionedConfig}
variable {engine : PartitionedEngine config} {id : Fin config.producers}

/-- The number of commands in flight. -/
def inFlight (engine : PartitionedEngine config) : Nat :=
  (∑ id, (engine.producers id).inFlight) + ∑ id, (engine.shards id).inFlight

theorem inFlight_setProducer (engine : PartitionedEngine config) (id : Fin config.producers)
    (point : ProducerPoint) :
    (engine.setProducer id point).inFlight + (engine.producers id).inFlight =
      engine.inFlight + point.inFlight := by
  have sum := Waiting.sum_update ProducerPoint.inFlight engine.producers id point
  simp only [inFlight, setProducer]
  omega

theorem inFlight_setShard (engine : PartitionedEngine config) (id : config.ShardId)
    (shard : Shard) :
    (engine.setShard id shard).inFlight + (engine.shards id).inFlight =
      engine.inFlight + shard.inFlight := by
  have sum := Waiting.sum_update Shard.inFlight engine.shards id shard
  simp only [inFlight, setShard]
  omega

theorem inFlight_setWorker (engine : PartitionedEngine config) (id : config.ShardId)
    (point : WorkerPoint) :
    (engine.setWorker id point).inFlight + (engine.shards id).worker.inFlight =
      engine.inFlight + point.inFlight := by
  have sum := engine.inFlight_setShard id { engine.shards id with worker := point }
  simp only [Shard.inFlight] at sum
  simp only [setWorker]
  omega

/-- `pending_` is the number of commands in flight. -/
def Counts (engine : PartitionedEngine config) : Prop := engine.pending = engine.inFlight

theorem counts_initial (config : PartitionedConfig) : (initial config).Counts := by
  simp [Counts, inFlight, initial, Shard.inFlight]

/-- A producer walks on, and `pending_` changes by as much as the command it carries. -/
theorem Counts.setProducer {engine engine' : PartitionedEngine config} (counts : engine.Counts)
    {point : ProducerPoint} (shards : engine'.shards = engine.shards)
    (producers : engine'.producers = engine.producers)
    (pending : engine'.pending + (engine.producers id).inFlight = engine.pending + point.inFlight) :
    (engine'.setProducer id point).Counts := by
  have same : engine'.inFlight = engine.inFlight := by
    rw [inFlight, inFlight, shards, producers]
  have sum := engine'.inFlight_setProducer id point
  rw [same, producers] at sum
  have before : engine.pending = engine.inFlight := counts
  change engine'.pending = _
  omega

theorem Counts.setWorker {engine engine' : PartitionedEngine config} (counts : engine.Counts)
    {id : config.ShardId} {point : WorkerPoint} (shards : engine'.shards = engine.shards)
    (producers : engine'.producers = engine.producers)
    (pending : engine'.pending + (engine.shards id).worker.inFlight =
      engine.pending + point.inFlight) : (engine'.setWorker id point).Counts := by
  have same : engine'.inFlight = engine.inFlight := by
    rw [inFlight, inFlight, shards, producers]
  have sum := engine'.inFlight_setWorker id point
  rw [same, shards] at sum
  have before : engine.pending = engine.inFlight := counts
  change engine'.pending = _
  omega

theorem Counts.setShard (counts : engine.Counts) {id : config.ShardId} {shard : Shard}
    (same : shard.inFlight = (engine.shards id).inFlight) :
    (engine.setShard id shard).Counts := by
  have sum := engine.inFlight_setShard id shard
  have before : engine.pending = engine.inFlight := counts
  change engine.pending = _
  omega

/-- A producer passes its command on to a shard. -/
theorem Counts.handOver (counts : engine.Counts) {index : config.ShardId} {shard : Shard}
    {point : ProducerPoint} (carried : (engine.producers id).inFlight = 1)
    (received : shard.inFlight = (engine.shards index).inFlight + 1) (passed : point.inFlight = 0) :
    ((engine.setShard index shard).setProducer id point).Counts := by
  have before : engine.pending = engine.inFlight := counts
  have shards := engine.inFlight_setShard index shard
  have producers := (engine.setShard index shard).inFlight_setProducer id point
  have same : ((engine.setShard index shard).producers id).inFlight = 1 := carried
  change engine.pending = _
  omega

theorem Counts.insert (counts : engine.Counts) {command : PartitionedCommand} {blocking : Bool}
    (point : engine.producers id = .counted command blocking) :
    (engine.insert id command blocking).Counts := by
  unfold PartitionedEngine.insert
  dsimp only
  split
  · exact counts
  · exact counts.setProducer rfl rfl (by rw [point]; rfl)
  · -- the command moves from the producer to the queue
    rename_i shard offered
    obtain ⟨queue, inserts, rfl⟩ := Shard.inserts_of_offer offered
    obtain ⟨_, _, rfl⟩ := inserts
    refine counts.handOver (by rw [point]; rfl) ?_ rfl
    simp only [Shard.inFlight, MPMCQueue.pushBack, List.length_append, List.length_singleton]
    omega

theorem Counts.producerStep (counts : engine.Counts) (id : Fin config.producers)
    (call : PartitionedCall) :
    (engine.producerStep id call).Counts := by
  unfold PartitionedEngine.producerStep
  cases point : engine.producers id with
  | counted command blocking => exact counts.insert point
  | idle =>
      dsimp only
      split
      · exact counts.setProducer rfl rfl (by rw [point]; rfl)
      · refine counts.setProducer rfl rfl ?_
        rw [point]
        split <;> rfl
  | admitted command blocking => exact counts.setProducer rfl rfl (by rw [point]; simp)
  | inserted command => exact counts.setProducer rfl rfl (by rw [point]; rfl)
  | refused command =>
      dsimp only
      split
      · exact counts.setProducer rfl rfl (by rw [point]; simp [countDown])
      · refine counts.setProducer rfl rfl ?_
        rw [point]
        split <;> simp [countDown]
  | notifying command =>
      refine counts.setProducer rfl rfl ?_
      rw [point]
      split <;> rfl
  | rejecting command => exact counts.setProducer rfl rfl (by rw [point]; rfl)

theorem Counts.workerStep (counts : engine.Counts) (id : config.ShardId) :
    (engine.workerStep id).Counts := by
  have acts := engine.workerStep_acts id
  generalize engine.workerStep id = next at acts ⊢
  cases acts with
  | stays => exact counts
  | exits popping _ _ => exact counts.setWorker rfl rfl (by rw [popping]; rfl)
  | pops popping front =>
      refine counts.setShard ?_
      rw [Shard.inFlight, Shard.inFlight, front, popping]
      rfl
  | processes popped =>
      refine counts.setShard ?_
      unfold Shard.process
      dsimp only
      split <;> rw [Shard.inFlight, Shard.inFlight, popped] <;> rfl
  | records before after =>
      refine counts.setWorker rfl rfl ?_
      rw [WorkerPoint.inFlight_of_undelivered before, WorkerPoint.inFlight_of_undelivered after]
  | completes completing =>
      refine counts.setShard ?_
      rw [Shard.inFlight, Shard.inFlight, completing]
      rfl
  | finishes finishing =>
      refine counts.setWorker rfl rfl ?_
      rw [finishing]
      split <;> simp [countDown]
  | notifies notifying => exact counts.setWorker rfl rfl (by rw [notifying]; rfl)

theorem Counts.waiterStep (counts : engine.Counts) (id : Fin config.waiters) :
    (engine.waiterStep id).Counts := by
  unfold PartitionedEngine.waiterStep
  split
  · exact counts
  · split <;> exact counts
  · split <;> exact counts
  · exact counts
  · exact counts

theorem Counts.closerStep (counts : engine.Counts) (id : Fin config.closers) :
    (engine.closerStep id).Counts := by
  unfold PartitionedEngine.closerStep
  split
  · split <;> exact counts
  · split
    · exact counts.setShard rfl
    · exact counts
  · split
    · split <;> exact counts
    · exact counts
  · exact counts
  · exact counts

theorem Counts.step (counts : engine.Counts) (event : PartitionedEvent config) :
    (engine.step event).Counts := by
  cases event with
  | producer id call => exact counts.producerStep id call
  | worker id => exact counts.workerStep id
  | waiter id => exact counts.waiterStep id
  | closer id => exact counts.closerStep id

/-- At every point of every run, `pending_` is the number of commands in flight. -/
theorem pending_eq_inFlight (config : PartitionedConfig)
    (events : List (PartitionedEvent config)) :
    (Schedule.run step (initial config) events).pending =
      (Schedule.run step (initial config) events).inFlight :=
  Schedule.run_invariant (P := Counts) (fun _ event known => known.step event)
    (counts_initial config) events

end PartitionedEngine

end Lob
