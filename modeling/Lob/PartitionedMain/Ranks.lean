import Lob.Library.Waiting
import Lob.PartitionedMain.Producers

/-!
# How far `partitioned_matching_main` has to go

A step that applies a command makes the number of unapplied commands smaller. Every other
helpful step leaves this number alone and brings the thread that takes it closer to the end of
its own program.
-/

namespace Lob

/-- The steps of a worker up to the head of its loop. -/
def WorkerPoint.rank : WorkerPoint → Nat
  | .popping => 1
  | .popped _ => 1
  | .recording _ trades => 8 + trades.length
  | .countingOutcome _ => 7
  | .countingTrades _ => 6
  | .timing _ => 5
  | .completing _ => 4
  | .finishing => 3
  | .notifying => 2
  | _ => 0

def Shard.rank (shard : Shard) : Nat := shard.queue.buffer.length + shard.worker.rank

/-- The commands of a shard that are not applied yet. -/
def Shard.unapplied (shard : Shard) : Nat :=
  shard.queue.buffer.length + shard.worker.unapplied.length

/-- A shard with fewer commands to apply, or with fewer steps up to the next one. -/
def Shard.Closer (next shard : Shard) : Prop :=
  next.unapplied < shard.unapplied ∨ next.unapplied = shard.unapplied ∧ next.rank < shard.rank

/-- The steps of a thread through `waitUntilIdle`, once nothing is pending. -/
def WaiterPoint.rank : WaiterPoint → Nat
  | .outside => 3
  | .locking => 2
  | .checking => 1
  | .sleeping => 4
  | .blocked => 3

/-- The steps of `shutdown`, for so many shards. -/
def CloserPoint.rank (shards : Nat) : CloserPoint → Nat
  | .outside => 2 * shards + 4
  | .closing index => shards + (shards - index) + 3
  | .joining index => shards - index + 2
  | .notifying => 1
  | .finished => 0

theorem CloserPoint.rank_le (shards : Nat) (point : CloserPoint) :
    point.rank shards ≤ 2 * shards + 4 := by
  cases point <;> simp only [CloserPoint.rank] <;> omega

/-- The steps of a producer thread. -/
def PartitionedArgs.driverRank (args : PartitionedArgs) : DriverPoint → ProducerPoint → Nat
  | .starting, _ => 5 * args.ordersPerProducer + 3
  | .waiting, _ => 5 * args.ordersPerProducer + 2
  | .generating i, _ => 5 * (args.ordersPerProducer - i) + 1
  | .enqueueing i, .counted _ _ => 5 * (args.ordersPerProducer - i) - 1
  | .enqueueing i, .inserted _ => 5 * (args.ordersPerProducer - i) - 3
  | .enqueueing i, _ => 5 * (args.ordersPerProducer - i)
  | _, _ => 0

namespace PartitionedMain

variable {args : PartitionedArgs} {state next : PartitionedMain args} {id : Fin args.producers}

/-- The steps of the main thread. -/
def mainRank (state : PartitionedMain args) : Nat :=
  let shards := args.shards.value.toNat
  match state.main with
  | .gathering => 2 * shards + 21 + args.producers
  | .joining index => 2 * shards + 20 + (args.producers - index)
  | .draining => 2 * shards + 15 + (state.engine.waiters args.waiter).rank
  | .reading => 2 * shards + 15
  | .validating symbols _ => 2 * shards + 6 + symbols.length
  | .closing _ => 1 + (state.engine.closers args.closer).rank shards
  | .returned _ => 0

/-- The orders that no worker has applied yet. -/
def unapplied (state : PartitionedMain args) : Nat :=
  (∑ id, (args.ordersPerProducer - state.sent id)) + ∑ id, (state.engine.shards id).unapplied

def rank (state : PartitionedMain args) : Nat :=
  (∑ id, args.driverRank (state.drivers id) (state.engine.producers id)) +
    (∑ id, (state.engine.shards id).rank) + state.mainRank

/-- The program has come closer to its end. -/
def Advances (state next : PartitionedMain args) : Prop :=
  Prod.Lex (· < ·) (· < ·) (next.unapplied, next.rank) (state.unapplied, state.rank)

theorem advances_iff : state.Advances next ↔ next.unapplied < state.unapplied ∨
    next.unapplied = state.unapplied ∧ next.rank < state.rank := Prod.lex_def

/-- A step of one shard. -/
theorem advances_shard {id : args.config.ShardId} {shard : Shard}
    (drivers : next.drivers = state.drivers)
    (producers : next.engine.producers = state.engine.producers)
    (shards : next.engine.shards = Function.update state.engine.shards id shard)
    (main : next.mainRank ≤ state.mainRank)
    (closer : shard.Closer (state.engine.shards id)) : state.Advances next := by
  have unapplied := Waiting.sum_update Shard.unapplied state.engine.shards id shard
  have rank := Waiting.sum_update Shard.rank state.engine.shards id shard
  have sent : next.sent = state.sent := by
    funext producer
    simp only [PartitionedMain.sent, drivers, producers]
  rw [Shard.Closer] at closer
  simp only [advances_iff, PartitionedMain.unapplied, PartitionedMain.rank, sent, drivers,
    producers, shards]
  omega

/-- A sum over the producer threads, after a step of one of them. -/
theorem sum_drivers (weight : DriverPoint → ProducerPoint → Nat) {point : DriverPoint}
    {call : ProducerPoint} (drivers : next.drivers = Function.update state.drivers id point)
    (producers : next.engine.producers = Function.update state.engine.producers id call) :
    (∑ other, weight (next.drivers other) (next.engine.producers other)) +
        weight (state.drivers id) (state.engine.producers id) =
      (∑ other, weight (state.drivers other) (state.engine.producers other)) +
        weight point call := by
  rw [drivers, producers]
  exact Waiting.sum_update_pair weight state.drivers state.engine.producers id point call

/-- A step of one producer thread. -/
theorem advances_driver {point : DriverPoint} {call : ProducerPoint}
    (drivers : next.drivers = Function.update state.drivers id point)
    (producers : next.engine.producers = Function.update state.engine.producers id call)
    (shards : next.engine.shards = state.engine.shards) (main : next.mainRank = state.mainRank)
    (sent : args.sentAt point call = state.sent id)
    (closer : args.driverRank point call <
      args.driverRank (state.drivers id) (state.engine.producers id)) : state.Advances next := by
  have unapplied := sum_drivers (fun point call => args.ordersPerProducer - args.sentAt point call)
    drivers producers
  have rank := sum_drivers args.driverRank drivers producers
  rw [PartitionedMain.sent] at sent
  simp only [advances_iff, PartitionedMain.unapplied, PartitionedMain.rank, PartitionedMain.sent,
    shards]
  rw [sent] at unapplied
  omega

/-- A producer thread hands an order over to a shard. -/
theorem advances_handOver {i : Nat} {command : PartitionedCommand} {index : args.config.ShardId}
    {shard : Shard} (enqueueing : state.drivers id = .enqueueing i)
    (counted : state.engine.producers id = .counted command true)
    (inside : i < args.ordersPerProducer) (drivers : next.drivers = state.drivers)
    (producers : next.engine.producers =
      Function.update state.engine.producers id (.inserted command))
    (shards : next.engine.shards = Function.update state.engine.shards index shard)
    (queued : shard.queue.buffer.length = (state.engine.shards index).queue.buffer.length + 1)
    (worker : shard.worker = (state.engine.shards index).worker)
    (main : next.mainRank = state.mainRank) : state.Advances next := by
  have same : next.drivers = Function.update state.drivers id (.enqueueing i) := by
    rw [drivers, ← enqueueing, Function.update_eq_self]
  have sent := sum_drivers (fun point call => args.ordersPerProducer - args.sentAt point call)
    same producers
  have rank := sum_drivers args.driverRank same producers
  have unapplied := Waiting.sum_update Shard.unapplied state.engine.shards index shard
  have shardRank := Waiting.sum_update Shard.rank state.engine.shards index shard
  have sentBefore : args.sentAt (state.drivers id) (state.engine.producers id) = i := by
    rw [enqueueing, counted]
    rfl
  have sentAfter : args.sentAt (.enqueueing i) (.inserted command) = i + 1 := rfl
  have rankBefore : args.driverRank (state.drivers id) (state.engine.producers id) =
      5 * (args.ordersPerProducer - i) - 1 := by
    rw [enqueueing, counted]
    rfl
  have rankAfter : args.driverRank (.enqueueing i) (.inserted command) =
      5 * (args.ordersPerProducer - i) - 3 := rfl
  have more : shard.unapplied = (state.engine.shards index).unapplied + 1 := by
    rw [Shard.unapplied, Shard.unapplied, queued, worker]
    omega
  have longer : shard.rank = (state.engine.shards index).rank + 1 := by
    rw [Shard.rank, Shard.rank, queued, worker]
    omega
  rw [sentBefore, sentAfter] at sent
  simp only [advances_iff, PartitionedMain.unapplied, PartitionedMain.rank, PartitionedMain.sent,
    shards]
  omega

/-- A step of the main thread. -/
theorem advances_main (drivers : next.drivers = state.drivers)
    (producers : next.engine.producers = state.engine.producers)
    (shards : ∀ id, (next.engine.shards id).unapplied = (state.engine.shards id).unapplied ∧
      (next.engine.shards id).rank = (state.engine.shards id).rank)
    (main : next.mainRank < state.mainRank) : state.Advances next := by
  have sent : next.sent = state.sent := by
    funext producer
    simp only [PartitionedMain.sent, drivers, producers]
  have unapplied : (∑ id, (next.engine.shards id).unapplied) =
      ∑ id, (state.engine.shards id).unapplied :=
    Finset.sum_congr rfl (fun id _ => (shards id).1)
  have rank : (∑ id, (next.engine.shards id).rank) = ∑ id, (state.engine.shards id).rank :=
    Finset.sum_congr rfl (fun id _ => (shards id).2)
  refine advances_iff.mpr (.inr ⟨?_, ?_⟩)
  · rw [PartitionedMain.unapplied, PartitionedMain.unapplied, sent, unapplied]
  · rw [PartitionedMain.rank, PartitionedMain.rank, drivers, producers, rank]
    omega

end PartitionedMain

end Lob
