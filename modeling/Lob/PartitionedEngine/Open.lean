import Lob.PartitionedEngine.Shutdown
import Lob.PartitionedEngine.Stats

/-!
# A partitioned engine that is open, and one that has come to rest

Before `shutdown` every call of `enqueue` is admitted, and an insertion waits for room in its
queue or is made. An engine with nothing in flight stays so until a producer calls it again.
-/

namespace Lob

namespace PartitionedEngine

variable {config : PartitionedConfig} {engine : PartitionedEngine config}

/-- Some run of the engine leads here. -/
def Reachable (engine : PartitionedEngine config) : Prop :=
  ∃ events, engine = Schedule.run step (initial config) events

theorem Reachable.step (reachable : engine.Reachable) (event : PartitionedEvent config) :
    (engine.step event).Reachable := by
  obtain ⟨events, rfl⟩ := reachable
  refine ⟨events ++ [event], ?_⟩
  rw [Schedule.run_append]
  rfl

/-- Nothing is in flight after a step of a worker that had nothing to do. -/
theorem Quiet.workerStep (quiet : engine.Quiet) (worker : config.ShardId) :
    (engine.workerStep worker).Quiet := by
  obtain ⟨empty, free⟩ := Shard.inFlight_eq_zero_iff.mp (quiet.shards worker)
  have own {shard : Shard} (zero : shard.inFlight = 0) (id : config.ShardId) :
      (Function.update engine.shards worker shard id).inFlight = 0 := by
    by_cases here : id = worker
    · rw [here, Function.update_self, zero]
    · rw [Function.update_of_ne here, quiet.shards]
  have acts := engine.workerStep_acts worker
  generalize engine.workerStep worker = next at acts ⊢
  cases acts with
  | stays => exact quiet
  | exits _ _ _ => exact ⟨quiet.producers, own (Shard.inFlight_eq_zero_iff.mpr ⟨empty, rfl⟩)⟩
  | pops _ front =>
      rw [empty] at front
      contradiction
  | processes popped =>
      rw [popped] at free
      contradiction
  | records before _ =>
      rw [WorkerPoint.inFlight_of_undelivered before] at free
      contradiction
  | completes completing =>
      rw [completing] at free
      contradiction
  | finishes finishing =>
      rw [finishing] at free
      contradiction
  | notifies _ => exact ⟨quiet.producers, own (Shard.inFlight_eq_zero_iff.mpr ⟨empty, rfl⟩)⟩

theorem Quiet.closerStep (quiet : engine.Quiet) (closer : Fin config.closers) :
    (engine.closerStep closer).Quiet := by
  refine ⟨?_, fun id => ?_⟩
  · rw [(engine.closerStep_sameCalls closer).producers]
    exact quiet.producers
  · rcases engine.closerStep_shards closer id with same | closed
    · rw [same, quiet.shards]
    · rw [closed]
      exact quiet.shards id

/-! ### Before `shutdown` -/

/-- `shutdown` has not begun. -/
structure Open (engine : PartitionedEngine config) : Prop where
  accepting : engine.accepting = true
  queues : ∀ id, (engine.shards id).queue.closed = false

variable {id : Fin config.producers} {call : PartitionedCall} {command : PartitionedCommand}

theorem producerStep_of_idle (accepting : engine.accepting = true)
    (idle : engine.producers id = .idle) (call : PartitionedCall) :
    engine.producerStep id call =
      { engine with nextTicket := engine.nextTicket + 1 }.setProducer id
        (.admitted (call.toCommand engine.nextTicket) call.blocking) := by
  simp only [producerStep, idle, accepting, if_true]

theorem producerStep_of_admitted {blocking : Bool}
    (admitted : engine.producers id = .admitted command blocking) :
    engine.producerStep id call =
      { engine with pending := engine.pending + 1 }.setProducer id (.counted command blocking) := by
  simp only [producerStep, admitted]

theorem producerStep_of_inserted (inserted : engine.producers id = .inserted command) :
    engine.producerStep id call =
      { engine with
        submitted := engine.submitted + 1
        returned := engine.returned ++ [(command, true)] }.setProducer id .idle := by
  simp only [producerStep, inserted]

/-- An open queue takes a command or lets its producer wait. -/
theorem producerStep_of_counted (opened : engine.Open)
    (counted : engine.producers id = .counted command true) :
    ((engine.shards (config.shardIndex command.symbol)).queue.capacity ≤
        (engine.shards (config.shardIndex command.symbol)).queue.buffer.length ∧
      ∀ call, engine.producerStep id call = engine) ∨
      ∃ queue, (engine.shards (config.shardIndex command.symbol)).queue.Inserts command queue ∧
        ∀ call, engine.producerStep id call =
          (engine.setShard (config.shardIndex command.symbol)
            { engine.shards (config.shardIndex command.symbol) with
              queue
              inserted := (engine.shards (config.shardIndex command.symbol)).inserted ++
                [command] }).setProducer id (.inserted command) := by
  simp only [producerStep, counted, insert]
  cases offered : (engine.shards (config.shardIndex command.symbol)).offer command true with
  | none =>
      refine .inl ⟨?_, fun _ => rfl⟩
      by_contra room
      simp [Shard.offer, MPMCQueue.push, opened.queues, Nat.not_le.mp room] at offered
  | some answer =>
      obtain ⟨shard, pushed⟩ := answer
      cases pushed with
      | true =>
          obtain ⟨queue, inserts, rfl⟩ := Shard.inserts_of_offer offered
          exact .inr ⟨queue, inserts, fun _ => rfl⟩
      | false =>
          -- a blocking insertion is refused by a closed queue only
          obtain ⟨⟨queue, pushed⟩, chosen, same⟩ := Option.map_eq_some_iff.mp offered
          obtain ⟨_, rfl⟩ := Prod.mk.inj same
          simp [MPMCQueue.push, opened.queues] at chosen

/-- A worker changes its own shard only, and never closes a queue. -/
theorem workerStep_closed (engine : PartitionedEngine config) (worker id : config.ShardId) :
    ((engine.workerStep worker).shards id).queue.closed = (engine.shards id).queue.closed := by
  have own {shard : Shard} (same : shard.queue.closed = (engine.shards worker).queue.closed) :
      (Function.update engine.shards worker shard id).queue.closed =
        (engine.shards id).queue.closed := by
    by_cases here : id = worker
    · rw [here, Function.update_self, same]
    · rw [Function.update_of_ne here]
  unfold workerStep
  cases point : (engine.shards worker).worker with
  | popping =>
      cases popped : (engine.shards worker).queue.pop with
      | none => rfl
      | some answer =>
          obtain ⟨queue, out⟩ := answer
          rcases MPMCQueue.pop_cases popped with ⟨rfl, _⟩ | ⟨command, rfl, _, rest⟩
          · exact own rfl
          · refine own ?_
            rw [rest]
  | popped command =>
      refine own ?_
      rw [Shard.process]
      dsimp only
      split <;> rfl
  | recording entry trades =>
      cases trades with
      | nil => exact own rfl
      | cons trade trades => exact own rfl
  | countingOutcome entry =>
      dsimp only
      split <;> exact own rfl
  | finishing =>
      dsimp only
      split <;> exact own rfl
  | exited => rfl
  | faulted => rfl
  | _ => exact own rfl

theorem Open.closed_update (opened : engine.Open) {index : config.ShardId} {shard : Shard}
    (closed : shard.queue.closed = false) (id : config.ShardId) :
    (Function.update engine.shards index shard id).queue.closed = false := by
  by_cases here : id = index
  · rw [here, Function.update_self, closed]
  · rw [Function.update_of_ne here, opened.queues]

theorem workerStep_accepting (engine : PartitionedEngine config) (worker : config.ShardId) :
    (engine.workerStep worker).accepting = engine.accepting := by
  have acts := engine.workerStep_acts worker
  generalize engine.workerStep worker = next at acts ⊢
  cases acts <;> rfl

theorem Open.workerStep (opened : engine.Open) (worker : config.ShardId) :
    (engine.workerStep worker).Open :=
  ⟨(engine.workerStep_accepting worker).trans opened.accepting,
    fun id => (engine.workerStep_closed worker id).trans (opened.queues id)⟩

theorem Open.waiterStep (opened : engine.Open) (waiter : Fin config.waiters) :
    (engine.waiterStep waiter).Open := by
  refine ⟨?_, fun id => ?_⟩
  · refine Eq.trans ?_ opened.accepting
    unfold PartitionedEngine.waiterStep
    split
    · rfl
    · split <;> rfl
    · split <;> rfl
    · rfl
    · rfl
  · rw [waiterStep_shards]
    exact opened.queues id

end PartitionedEngine

end Lob
