import Lob.PartitionedEngine

/-!
# What a worker does

`workerStep` has a case for every point of `workerLoop`, and `WorkerTurns` lists them with
their conditions. `WorkerActs` groups the cases by what they do to the engine: most points
only count a processed command and walk on. The invariants of the engine are proved by cases
on one of the two lists.
-/

namespace Lob

namespace WorkerPoint

/-- The command that was popped but not applied yet. -/
@[simp] def unapplied : WorkerPoint → List PartitionedCommand
  | .popped command => [command]
  | _ => []

/-- The command that was applied but whose promise was not reached yet. -/
@[simp] def undelivered : WorkerPoint → List ProcessedCommand
  | .recording entry _ => [entry]
  | .countingOutcome entry => [entry]
  | .countingTrades entry => [entry]
  | .timing entry => [entry]
  | .completing entry => [entry]
  | _ => []

/-- A worker that has an applied command in its hands has no other one. -/
theorem unapplied_of_undelivered {point : WorkerPoint} {entry : ProcessedCommand}
    (carries : point.undelivered = [entry]) : point.unapplied = [] := by
  cases point with
  | popped command => contradiction
  | _ => rfl

end WorkerPoint

namespace PartitionedEngine

variable {config : PartitionedConfig}

/-- A step of the worker of one shard, point by point. -/
inductive WorkerTurns (engine : PartitionedEngine config) (id : config.ShardId) :
    PartitionedEngine config → Prop where
  /-- its queue is empty, or it is out of its loop -/
  | stays : WorkerTurns engine id engine
  | exits (popping : (engine.shards id).worker = .popping)
      (closed : (engine.shards id).queue.closed = true)
      (drained : (engine.shards id).queue.buffer = []) :
      WorkerTurns engine id (engine.setWorker id .exited)
  | pops {command : PartitionedCommand} {queue : MPMCQueue PartitionedCommand}
      (popping : (engine.shards id).worker = .popping)
      (front : (engine.shards id).queue.buffer = command :: queue.buffer) :
      WorkerTurns engine id
        (engine.setShard id { engine.shards id with queue, worker := .popped command })
  | processes {command : PartitionedCommand}
      (popped : (engine.shards id).worker = .popped command) :
      WorkerTurns engine id (engine.setShard id ((engine.shards id).process config.limits command))
  | logs {entry : ProcessedCommand} {trade : Trade} {trades : List Trade}
      (recording : (engine.shards id).worker = .recording entry (trade :: trades)) :
      WorkerTurns engine id
        ({ engine with tradeLog := engine.tradeLog.record entry.command.symbol trade }.setWorker id
          (.recording entry trades))
  | countsProcessed {entry : ProcessedCommand}
      (recorded : (engine.shards id).worker = .recording entry []) :
      WorkerTurns engine id
        ({ engine with processed := engine.processed + 1 }.setWorker id (.countingOutcome entry))
  | countsAccepted {entry : ProcessedCommand}
      (counting : (engine.shards id).worker = .countingOutcome entry)
      (accepted : entry.result.report.accepted = true) :
      WorkerTurns engine id
        ({ engine with accepted := engine.accepted + 1 }.setWorker id (.countingTrades entry))
  | countsRejected {entry : ProcessedCommand}
      (counting : (engine.shards id).worker = .countingOutcome entry)
      (rejected : entry.result.report.accepted = false) :
      WorkerTurns engine id
        ({ engine with rejected := engine.rejected + 1 }.setWorker id (.countingTrades entry))
  | countsTrades {entry : ProcessedCommand}
      (counting : (engine.shards id).worker = .countingTrades entry) :
      WorkerTurns engine id
        ({ engine with
          trades := engine.trades + UInt64.ofNat entry.result.trades.length }.setWorker id
          (.timing entry))
  | times {entry : ProcessedCommand} (timing : (engine.shards id).worker = .timing entry) :
      WorkerTurns engine id
        ({ engine with latencyCount := engine.latencyCount + 1 }.setWorker id (.completing entry))
  | completes {entry : ProcessedCommand}
      (completing : (engine.shards id).worker = .completing entry) :
      WorkerTurns engine id (engine.setShard id ((engine.shards id).complete entry))
  | finishes (finishing : (engine.shards id).worker = .finishing) :
      WorkerTurns engine id
        (engine.countDown.setWorker id (if engine.pending = 1 then .notifying else .popping))
  | notifies (notifying : (engine.shards id).worker = .notifying) :
      WorkerTurns engine id (engine.notifyAll.setWorker id .popping)

theorem workerStep_turns (engine : PartitionedEngine config) (id : config.ShardId) :
    engine.WorkerTurns id (engine.workerStep id) := by
  unfold workerStep
  cases point : (engine.shards id).worker with
  | popping =>
      dsimp only
      split
      · exact .stays
      · rename_i queue popped
        rcases MPMCQueue.pop_cases popped with ⟨_, _, closed, drained⟩ | ⟨item, some, _⟩
        · exact .exits point closed drained
        · contradiction
      · rename_i queue command popped
        rcases MPMCQueue.pop_cases popped with ⟨none, _⟩ | ⟨item, same, front, _⟩
        · contradiction
        · obtain rfl := Option.some.inj same
          exact .pops point front
  | popped command => exact .processes point
  | recording entry trades =>
      cases trades with
      | nil => exact .countsProcessed point
      | cons trade trades => exact .logs point
  | countingOutcome entry =>
      dsimp only
      split
      · rename_i accepted
        exact .countsAccepted point accepted
      · rename_i rejected
        exact .countsRejected point (by simpa using rejected)
  | countingTrades entry => exact .countsTrades point
  | timing entry => exact .times point
  | completing entry => exact .completes point
  | finishing =>
      have finishes := WorkerTurns.finishes point
      dsimp only
      split
      · rename_i last
        rwa [if_pos last] at finishes
      · rename_i more
        rwa [if_neg more] at finishes
  | notifying => exact .notifies point
  | exited => exact .stays
  | faulted => exact .stays

/-- A step of the worker of one shard, grouped by what it does. -/
inductive WorkerActs (engine : PartitionedEngine config) (id : config.ShardId) :
    PartitionedEngine config → Prop where
  /-- its queue is empty, or it is out of its loop -/
  | stays : WorkerActs engine id engine
  | exits (popping : (engine.shards id).worker = .popping)
      (closed : (engine.shards id).queue.closed = true)
      (drained : (engine.shards id).queue.buffer = []) :
      WorkerActs engine id (engine.setWorker id .exited)
  | pops {command : PartitionedCommand} {queue : MPMCQueue PartitionedCommand}
      (popping : (engine.shards id).worker = .popping)
      (front : (engine.shards id).queue.buffer = command :: queue.buffer) :
      WorkerActs engine id
        (engine.setShard id { engine.shards id with queue, worker := .popped command })
  | processes {command : PartitionedCommand}
      (popped : (engine.shards id).worker = .popped command) :
      WorkerActs engine id (engine.setShard id ((engine.shards id).process config.limits command))
  /-- the counters and the trade log -/
  | records {entry : ProcessedCommand} {point : WorkerPoint} {tradeLog : TradeLog}
      {processed accepted rejected trades latencyCount : UInt64}
      (before : (engine.shards id).worker.undelivered = [entry])
      (after : point.undelivered = [entry]) :
      WorkerActs engine id ({ engine with
        tradeLog, processed, accepted, rejected, trades, latencyCount }.setWorker id point)
  | completes {entry : ProcessedCommand}
      (completing : (engine.shards id).worker = .completing entry) :
      WorkerActs engine id (engine.setShard id ((engine.shards id).complete entry))
  | finishes (finishing : (engine.shards id).worker = .finishing) :
      WorkerActs engine id
        (engine.countDown.setWorker id (if engine.pending = 1 then .notifying else .popping))
  | notifies (notifying : (engine.shards id).worker = .notifying) :
      WorkerActs engine id (engine.notifyAll.setWorker id .popping)

theorem workerStep_acts (engine : PartitionedEngine config) (id : config.ShardId) :
    engine.WorkerActs id (engine.workerStep id) := by
  have turns := engine.workerStep_turns id
  generalize engine.workerStep id = next at turns ⊢
  cases turns with
  | stays => exact .stays
  | exits popping closed drained => exact .exits popping closed drained
  | pops popping front => exact .pops popping front
  | processes popped => exact .processes popped
  | logs recording => exact .records (by rw [recording]; rfl) rfl
  | countsProcessed recorded => exact .records (by rw [recorded]; rfl) rfl
  | countsAccepted counting _ => exact .records (by rw [counting]; rfl) rfl
  | countsRejected counting _ => exact .records (by rw [counting]; rfl) rfl
  | countsTrades counting => exact .records (by rw [counting]; rfl) rfl
  | times timing => exact .records (by rw [timing]; rfl) rfl
  | completes completing => exact .completes completing
  | finishes finishing => exact .finishes finishing
  | notifies notifying => exact .notifies notifying

end PartitionedEngine

end Lob
