import Lob.Library.Ring
import Lob.MPMCQueue
import Lob.MatchingEngine
import Lob.TradeLog

/-!
# The partitioned engine

`PartitionedMatchingEngine` with all its threads: producers in `enqueueCommand`, one worker
for each shard in `workerLoop`, threads in `waitUntilIdle` and threads in `shutdown`. A step
is one atomic operation, one section under a mutex, or one operation of a condition
variable. In `waitUntilIdle` the test of the predicate and the atomic unlock-and-block are
two steps, both under `idle_mutex_`; a blocked thread that steps on its own has woken up
spuriously. A thread that has to wait does nothing in its step.

The shards also remember what happened to their commands. These histories, the tickets that
tell calls apart and the list of returned calls are not part of the program.
-/

namespace Lob

/-! ### Commands -/

structure PartitionedCommandResult where
  report : ExecutionReport
  trades : List Trade := []
  deriving DecidableEq, Repr

/-- `PartitionedMatchingEngine::Command`. The clock reading is left out, a promise is there
or not, and the ticket is the number of the call. -/
structure PartitionedCommand where
  symbol : Symbol
  command : Command
  completion : Bool
  ticket : Nat
  deriving DecidableEq

/-- The calls that lead to `enqueueCommand`. -/
inductive PartitionedCall where
  | enqueue (symbol : Symbol) (order : Order)
  | enqueueCancel (symbol : Symbol) (orderId : UInt64)
  | tryEnqueue (symbol : Symbol) (order : Order)
  | submit (symbol : Symbol) (order : Order)
  | cancel (symbol : Symbol) (orderId : UInt64)
  deriving DecidableEq

namespace PartitionedCall

def blocking : PartitionedCall → Bool
  | .tryEnqueue _ _ => false
  | _ => true

def toCommand (ticket : Nat) : PartitionedCall → PartitionedCommand
  | .enqueue symbol order => ⟨symbol, .newOrder order, false, ticket⟩
  | .enqueueCancel symbol orderId => ⟨symbol, .cancel orderId, false, ticket⟩
  | .tryEnqueue symbol order => ⟨symbol, .newOrder order, false, ticket⟩
  | .submit symbol order => ⟨symbol, .newOrder order, true, ticket⟩
  | .cancel symbol orderId => ⟨symbol, .cancel orderId, true, ticket⟩

end PartitionedCall

/-- The result that `completeRejected` puts into the promise of a refused command. -/
def PartitionedCommand.rejectedResult (command : PartitionedCommand) :
    PartitionedCommandResult where
  report :=
    match command.command with
    | .newOrder order =>
        { orderId := order.id, command := .newOrder, rejectReason := .engineShuttingDown }
    | .cancel orderId =>
        { orderId, command := .cancelOrder, rejectReason := .engineShuttingDown }

/-- A command and the result that was computed for it. -/
structure ProcessedCommand where
  command : PartitionedCommand
  result : PartitionedCommandResult
  deriving DecidableEq

/-! ### Threads -/

/-- Where a producer is in `enqueueCommand`. -/
inductive ProducerPoint where
  | idle
  /-- `accepting_` was true, `pending_` comes next -/
  | admitted (command : PartitionedCommand) (blocking : Bool)
  /-- `pending_` was incremented, the queue comes next -/
  | counted (command : PartitionedCommand) (blocking : Bool)
  /-- the queue took the command, `submitted_` comes next -/
  | inserted (command : PartitionedCommand)
  /-- the queue refused the command, `finishOnePending` comes next -/
  | refused (command : PartitionedCommand)
  /-- `pending_` has become zero, `notify_all` comes next -/
  | notifying (command : PartitionedCommand)
  /-- `enqueueCommand` has returned false, `completeRejected` comes next -/
  | rejecting (command : PartitionedCommand)
  deriving DecidableEq

/-- Where a worker is in `workerLoop`. -/
inductive WorkerPoint where
  | popping
  /-- the section under `state_mutex` comes next -/
  | popped (command : PartitionedCommand)
  /-- these trades are still to be recorded, then `processed_` comes next -/
  | recording (entry : ProcessedCommand) (trades : List Trade)
  /-- `accepted_` or `rejected_` comes next -/
  | countingOutcome (entry : ProcessedCommand)
  /-- `trades_` comes next -/
  | countingTrades (entry : ProcessedCommand)
  /-- the latency histogram comes next -/
  | timing (entry : ProcessedCommand)
  /-- the promise comes next -/
  | completing (entry : ProcessedCommand)
  /-- `finishOnePending` comes next -/
  | finishing
  /-- `pending_` has become zero, `notify_all` comes next -/
  | notifying
  /-- the queue was closed and drained -/
  | exited
  /-- an assertion of the engine failed -/
  | faulted
  deriving DecidableEq

/-- Where a thread is in `waitUntilIdle`. -/
inductive WaiterPoint where
  | outside
  /-- about to lock `idle_mutex_`, at first or after a wakeup -/
  | locking
  /-- holds the mutex, the predicate comes next -/
  | checking
  /-- holds the mutex, the predicate was false, unlock-and-block comes next -/
  | sleeping
  | blocked
  deriving DecidableEq

/-- Where a thread is in `shutdown`. -/
inductive CloserPoint where
  | outside
  /-- about to close the queue with this number -/
  | closing (shard : Nat)
  /-- about to join the worker with this number -/
  | joining (shard : Nat)
  | notifying
  | finished
  deriving DecidableEq

/-! ### The engine -/

/-- `PartitionedMatchingEngine::Shard` with its worker, and what happened to its commands:
in which order they were inserted, what was computed for them, and which promises the
worker has set. -/
structure Shard where
  queue : MPMCQueue PartitionedCommand
  worker : WorkerPoint := .popping
  engines : Symbol → Option MatchingEngine := fun _ => none
  inserted : List PartitionedCommand := []
  applied : List ProcessedCommand := []
  delivered : List ProcessedCommand := []

/-- `push` or `try_push` on the queue of the shard. -/
def Shard.offer (shard : Shard) (command : PartitionedCommand) (blocking : Bool) :
    Option (Shard × Bool) :=
  let result := if blocking then shard.queue.push command else some (shard.queue.tryPush command)
  result.map (fun (queue, pushed) =>
    ({ shard with
        queue, inserted := if pushed then shard.inserted ++ [command] else shard.inserted },
      pushed))

/-- The section of `workerLoop` under `state_mutex`. -/
def Shard.process (shard : Shard) (limits : RiskLimits) (command : PartitionedCommand) :
    Shard :=
  let engine := (shard.engines command.symbol).getD (.fresh limits)
  match engine.apply command.command [] with
  | .error _ => { shard with worker := .faulted }
  | .ok response =>
      let entry : ProcessedCommand := ⟨command, ⟨response.report, response.outTrades⟩⟩
      { shard with
        engines := Function.update shard.engines command.symbol (some response.engine)
        applied := shard.applied ++ [entry]
        worker := .recording entry response.outTrades }

/-- The worker sets the promise of its command, if there is one. -/
def Shard.complete (shard : Shard) (entry : ProcessedCommand) : Shard :=
  { shard with
    delivered := if entry.command.completion then shard.delivered ++ [entry] else shard.delivered
    worker := .finishing }

theorem Shard.inserts_of_offer {shard shard' : Shard} {command : PartitionedCommand}
    {blocking : Bool} (result : shard.offer command blocking = some (shard', true)) :
    ∃ queue, shard.queue.Inserts command queue ∧
      shard' = { shard with queue, inserted := shard.inserted ++ [command] } := by
  obtain ⟨⟨queue, pushed⟩, chosen, same⟩ := Option.map_eq_some_iff.mp result
  obtain ⟨rfl, rfl⟩ := Prod.mk.inj same
  refine ⟨queue, ?_, rfl⟩
  cases blocking with
  | true => exact MPMCQueue.inserts_of_push chosen
  | false => exact MPMCQueue.inserts_of_tryPush (Option.some.inj chosen)

/-- The arguments of the constructor, which throws for sizes other than these, and the
number of threads that call the engine. -/
structure PartitionedConfig where
  shardCount : PowerOfTwo
  queueCapacity : Nat
  queuePositive : 0 < queueCapacity
  limits : RiskLimits := {}
  tradeLogDepth : Nat := 200
  producers : Nat
  waiters : Nat
  closers : Nat

abbrev PartitionedConfig.ShardId (config : PartitionedConfig) : Type :=
  Fin config.shardCount.value.toNat

/-- `PartitionedMatchingEngine::shardIndex`. -/
def PartitionedConfig.shardIndex (config : PartitionedConfig) (symbol : Symbol) : config.ShardId :=
  config.shardCount.index symbol.hash

/-- `class PartitionedMatchingEngine` and its threads. `pending_` is an integer here, so that
a count below zero would show; to wrap upwards it would take `2 ^ 64` commands in memory. -/
structure PartitionedEngine (config : PartitionedConfig) where
  shards : config.ShardId → Shard
  tradeLog : TradeLog
  accepting : Bool := true
  submitted : UInt64 := 0
  processed : UInt64 := 0
  accepted : UInt64 := 0
  rejected : UInt64 := 0
  trades : UInt64 := 0
  latencyCount : UInt64 := 0
  pending : Int := 0
  idleMutex : Bool := false
  producers : Fin config.producers → ProducerPoint := fun _ => .idle
  waiters : Fin config.waiters → WaiterPoint := fun _ => .outside
  closers : Fin config.closers → CloserPoint := fun _ => .outside
  nextTicket : Nat := 0
  returned : List (PartitionedCommand × Bool) := []
  refusals : List ProcessedCommand := []

/-- Whose step is next; an idle producer starts the given call. -/
inductive PartitionedEvent (config : PartitionedConfig) where
  | producer (id : Fin config.producers) (call : PartitionedCall)
  | worker (id : config.ShardId)
  | waiter (id : Fin config.waiters)
  | closer (id : Fin config.closers)

namespace PartitionedEngine

variable {config : PartitionedConfig}

def initial (config : PartitionedConfig) : PartitionedEngine config where
  shards := fun _ =>
    { queue := { capacity := config.queueCapacity, positive := config.queuePositive } }
  tradeLog := { maxPerSymbol := config.tradeLogDepth }

def setShard (engine : PartitionedEngine config) (id : config.ShardId) (shard : Shard) :
    PartitionedEngine config :=
  { engine with shards := Function.update engine.shards id shard }

def setWorker (engine : PartitionedEngine config) (id : config.ShardId) (point : WorkerPoint) :
    PartitionedEngine config :=
  engine.setShard id { engine.shards id with worker := point }

def setProducer (engine : PartitionedEngine config) (id : Fin config.producers)
    (point : ProducerPoint) : PartitionedEngine config :=
  { engine with producers := Function.update engine.producers id point }

def setWaiter (engine : PartitionedEngine config) (id : Fin config.waiters)
    (point : WaiterPoint) : PartitionedEngine config :=
  { engine with waiters := Function.update engine.waiters id point }

def setCloser (engine : PartitionedEngine config) (id : Fin config.closers)
    (point : CloserPoint) : PartitionedEngine config :=
  { engine with closers := Function.update engine.closers id point }

/-- `idle_cv_.notify_all()`. -/
def notifyAll (engine : PartitionedEngine config) : PartitionedEngine config :=
  { engine with
    waiters := fun id => if engine.waiters id = .blocked then .locking else engine.waiters id }

/-- `pending_.fetch_sub(1)`. -/
def countDown (engine : PartitionedEngine config) : PartitionedEngine config :=
  { engine with pending := engine.pending - 1 }

/-- `enqueueCommand` returns false; `submit` and `cancel` go on with `completeRejected`. -/
def returnFalse (engine : PartitionedEngine config) (id : Fin config.producers)
    (command : PartitionedCommand) : PartitionedEngine config :=
  { engine with returned := engine.returned ++ [(command, false)] }.setProducer id
    (if command.completion then .rejecting command else .idle)

section Fields

variable (engine : PartitionedEngine config)

@[simp] theorem producers_setProducer (id : Fin config.producers) (point : ProducerPoint) :
    (engine.setProducer id point).producers = Function.update engine.producers id point := rfl

@[simp] theorem waiters_setWaiter (id : Fin config.waiters) (point : WaiterPoint) :
    (engine.setWaiter id point).waiters = Function.update engine.waiters id point := rfl

@[simp] theorem shards_setWorker (id : config.ShardId) (point : WorkerPoint) :
    (engine.setWorker id point).shards =
      Function.update engine.shards id { engine.shards id with worker := point } := rfl

@[simp] theorem shards_setShard (id : config.ShardId) (shard : Shard) :
    (engine.setShard id shard).shards = Function.update engine.shards id shard := rfl

end Fields

/-- `push` or `try_push` on the queue that `enqueueCommand` chooses. -/
def insert (engine : PartitionedEngine config) (id : Fin config.producers)
    (command : PartitionedCommand) (blocking : Bool) : PartitionedEngine config :=
  let index := config.shardIndex command.symbol
  match (engine.shards index).offer command blocking with
  | none => engine
  | some (_, false) => engine.setProducer id (.refused command)
  | some (shard, true) => (engine.setShard index shard).setProducer id (.inserted command)

/-- A step in one of the calls that lead to `enqueueCommand`. -/
def producerStep (engine : PartitionedEngine config) (id : Fin config.producers)
    (call : PartitionedCall) : PartitionedEngine config :=
  match engine.producers id with
  | .idle =>
      let command := call.toCommand engine.nextTicket
      let engine := { engine with nextTicket := engine.nextTicket + 1 }
      if engine.accepting then engine.setProducer id (.admitted command call.blocking)
      else engine.returnFalse id command
  | .admitted command blocking =>
      { engine with pending := engine.pending + 1 }.setProducer id (.counted command blocking)
  | .counted command blocking => engine.insert id command blocking
  | .inserted command =>
      { engine with
        submitted := engine.submitted + 1
        returned := engine.returned ++ [(command, true)] }.setProducer id .idle
  | .refused command =>
      if engine.pending = 1 then engine.countDown.setProducer id (.notifying command)
      else engine.countDown.returnFalse id command
  | .notifying command => engine.notifyAll.returnFalse id command
  | .rejecting command =>
      let entry : ProcessedCommand := { command, result := command.rejectedResult }
      { engine with refusals := engine.refusals ++ [entry] }.setProducer id .idle

/-- A step of `workerLoop`. -/
def workerStep (engine : PartitionedEngine config) (id : config.ShardId) :
    PartitionedEngine config :=
  match (engine.shards id).worker with
  | .popping =>
      match (engine.shards id).queue.pop with
      | none => engine
      | some (_, none) => engine.setWorker id .exited
      | some (queue, some command) =>
          engine.setShard id { engine.shards id with queue, worker := .popped command }
  | .popped command => engine.setShard id ((engine.shards id).process config.limits command)
  | .recording entry (trade :: trades) =>
      { engine with tradeLog := engine.tradeLog.record entry.command.symbol trade }.setWorker id
        (.recording entry trades)
  | .recording entry [] =>
      { engine with processed := engine.processed + 1 }.setWorker id (.countingOutcome entry)
  | .countingOutcome entry =>
      if entry.result.report.accepted then
        { engine with accepted := engine.accepted + 1 }.setWorker id (.countingTrades entry)
      else { engine with rejected := engine.rejected + 1 }.setWorker id (.countingTrades entry)
  | .countingTrades entry =>
      { engine with
        trades := engine.trades + UInt64.ofNat entry.result.trades.length }.setWorker id
        (.timing entry)
  | .timing entry =>
      { engine with latencyCount := engine.latencyCount + 1 }.setWorker id (.completing entry)
  | .completing entry => engine.setShard id ((engine.shards id).complete entry)
  | .finishing =>
      if engine.pending = 1 then engine.countDown.setWorker id .notifying
      else engine.countDown.setWorker id .popping
  | .notifying => engine.notifyAll.setWorker id .popping
  | .exited => engine
  | .faulted => engine

/-- A step of `waitUntilIdle`. -/
def waiterStep (engine : PartitionedEngine config) (id : Fin config.waiters) :
    PartitionedEngine config :=
  match engine.waiters id with
  | .outside => engine.setWaiter id .locking
  | .locking =>
      if engine.idleMutex then engine
      else { engine with idleMutex := true }.setWaiter id .checking
  | .checking =>
      if engine.pending = 0 then { engine with idleMutex := false }.setWaiter id .outside
      else engine.setWaiter id .sleeping
  | .sleeping => { engine with idleMutex := false }.setWaiter id .blocked
  | .blocked => engine.setWaiter id .locking

/-- A step of `shutdown`. -/
def closerStep (engine : PartitionedEngine config) (id : Fin config.closers) :
    PartitionedEngine config :=
  match engine.closers id with
  | .outside =>
      if engine.accepting then { engine with accepting := false }.setCloser id (.closing 0)
      else engine
  | .closing index =>
      if inside : index < config.shardCount.value.toNat then
        let shard := engine.shards ⟨index, inside⟩
        (engine.setShard ⟨index, inside⟩ { shard with queue := shard.queue.close }).setCloser id
          (.closing (index + 1))
      else engine.setCloser id (.joining 0)
  | .joining index =>
      if inside : index < config.shardCount.value.toNat then
        if (engine.shards ⟨index, inside⟩).worker = .exited then
          engine.setCloser id (.joining (index + 1))
        else engine
      else engine.setCloser id .notifying
  | .notifying => engine.notifyAll.setCloser id .finished
  | .finished => engine

def step (engine : PartitionedEngine config) :
    PartitionedEvent config → PartitionedEngine config
  | .producer id call => engine.producerStep id call
  | .worker id => engine.workerStep id
  | .waiter id => engine.waiterStep id
  | .closer id => engine.closerStep id

/-! ### Observers, each one section under `state_mutex` -/

/-- The engine of a symbol, where there is one. -/
def engineOf (engine : PartitionedEngine config) (symbol : Symbol) : Option MatchingEngine :=
  (engine.shards (config.shardIndex symbol)).engines symbol

end PartitionedEngine

/-- `PartitionedMatchingEngine::Snapshot`; `exists` is whether there is one. -/
structure PartitionedSnapshot where
  bestBid : Option Int64
  bestAsk : Option Int64
  orderCount : Nat
  buyDepth : Nat
  sellDepth : Nat
  sequence : UInt64
  deriving DecidableEq, Repr

def MatchingEngine.snapshot (engine : MatchingEngine) : PartitionedSnapshot where
  bestBid := engine.book.bestBid
  bestAsk := engine.book.bestAsk
  orderCount := engine.book.orderCount
  buyDepth := engine.book.depth .buy
  sellDepth := engine.book.depth .sell
  sequence := engine.sequence

namespace PartitionedEngine

variable {config : PartitionedConfig}

def snapshot (engine : PartitionedEngine config) (symbol : Symbol) : Option PartitionedSnapshot :=
  (engine.engineOf symbol).map MatchingEngine.snapshot

def validate (engine : PartitionedEngine config) (symbol : Symbol) : Bool :=
  match engine.engineOf symbol with
  | none => true
  | some engine => engine.book.checkInvariants

end PartitionedEngine

/-! ### The counters -/

/-- `struct PartitionedEngineStats`; of the latency snapshot, its count. -/
structure PartitionedEngineStats where
  submitted : UInt64
  processed : UInt64
  accepted : UInt64
  rejected : UInt64
  trades : UInt64
  pending : Int
  maxQueueHighWatermark : Nat
  endToEndLatencyCount : UInt64
  deriving DecidableEq, Repr

/-- `PartitionedMatchingEngine::stats`, with all its loads in one state. -/
def PartitionedEngine.stats {config : PartitionedConfig} (engine : PartitionedEngine config) :
    PartitionedEngineStats where
  submitted := engine.submitted
  processed := engine.processed
  accepted := engine.accepted
  rejected := engine.rejected
  trades := engine.trades
  pending := engine.pending
  maxQueueHighWatermark :=
    (List.finRange config.shardCount.value.toNat).foldl
      (fun most id => max most (engine.shards id).queue.highWatermark) 0
  endToEndLatencyCount := engine.latencyCount

end Lob
