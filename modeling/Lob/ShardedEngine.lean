import Lob.Library.Ring
import Lob.MatchingEngine
import Lob.TradeLog

/-!
# The sharded engine

`ShardedMatchingEngine` with the worker threads that call it. `submit` matches its order
under the mutex of the symbol's shard, releases the mutex, and then records its new trades
one by one under the mutex of the trade log. A step is one section under a mutex, or the
return of `submit`; the step of a thread that is outside starts the given call.

The engine also remembers the trades of each symbol in the order in which the matching
sections made them, and what the calls returned. Neither is part of the program.
-/

namespace Lob

/-- `ShardedMatchingEngine::kShardCount`. -/
def kShardCount : PowerOfTwo where
  value := 8
  powerOfTwo := by decide
  positive := by decide

/-- The calls of a worker. The vector of `submit` is the caller's, with what it holds
already. -/
inductive ShardedCall where
  | submit (symbol : Symbol) (order : Order) (outTrades : List Trade)
  | cancel (symbol : Symbol) (orderId : UInt64)
  deriving DecidableEq

/-- What a call returns. -/
inductive ShardedResult where
  | submitted (tradeCount : Nat)
  | canceled (success : Bool)
  deriving DecidableEq, Repr

/-- Where a worker is in `submit`. -/
inductive SubmitPoint where
  | outside
  /-- these trades are still to be recorded, of so many -/
  | recording (symbol : Symbol) (trades : List Trade) (tradeCount : Nat)
  /-- an assertion of the engine failed -/
  | faulted
  deriving DecidableEq

/-- The argument of the constructor, and the number of threads that call the engine. -/
structure ShardedConfig where
  tradeLogDepth : Nat := 200
  workers : Nat

/-- `class ShardedMatchingEngine` and its callers; a symbol without an engine is not in the
map of its shard. -/
structure ShardedEngine (config : ShardedConfig) where
  shards : Fin kShardCount.value.toNat → Symbol → Option MatchingEngine := fun _ _ => none
  tradeLog : TradeLog
  workers : Fin config.workers → SubmitPoint := fun _ => .outside
  generated : Symbol → List Trade := fun _ => []
  returned : List (Fin config.workers × ShardedResult) := []

/-- `ShardedMatchingEngine::Snapshot`, of a symbol that has an engine. -/
structure ShardedSnapshot where
  bestBid : Option Int64
  bestAsk : Option Int64
  orderCount : Nat
  deriving DecidableEq

def ShardedSnapshot.of (matching : MatchingEngine) : ShardedSnapshot where
  bestBid := matching.book.bestBid
  bestAsk := matching.book.bestAsk
  orderCount := matching.book.orderCount

/-- Whose step is next; a worker that is outside starts the given call. -/
structure ShardedEvent (config : ShardedConfig) where
  worker : Fin config.workers
  call : ShardedCall
  deriving DecidableEq

namespace ShardedEngine

variable {config : ShardedConfig}

def initial (config : ShardedConfig) : ShardedEngine config where
  tradeLog := { maxPerSymbol := config.tradeLogDepth }

/-- `ShardedMatchingEngine::shardFor`. -/
def shardFor (symbol : Symbol) : Fin kShardCount.value.toNat := kShardCount.index symbol.hash

/-- The engine of a symbol, where there is one. -/
def engineOf (engine : ShardedEngine config) (symbol : Symbol) : Option MatchingEngine :=
  engine.shards (shardFor symbol) symbol

def setEngine (engine : ShardedEngine config) (symbol : Symbol) (matching : MatchingEngine) :
    ShardedEngine config :=
  { engine with
    shards := Function.update engine.shards (shardFor symbol)
      (Function.update (engine.shards (shardFor symbol)) symbol (some matching)) }

def setWorker (engine : ShardedEngine config) (id : Fin config.workers) (point : SubmitPoint) :
    ShardedEngine config :=
  { engine with workers := Function.update engine.workers id point }

def returnWith (engine : ShardedEngine config) (id : Fin config.workers) (result : ShardedResult) :
    ShardedEngine config :=
  { engine with returned := engine.returned ++ [(id, result)] }.setWorker id .outside

/-- The section of `submit` under the mutex of the shard. -/
def submit (engine : ShardedEngine config) (id : Fin config.workers) (symbol : Symbol)
    (order : Order) (outTrades : List Trade) : ShardedEngine config :=
  match ((engine.engineOf symbol).getD (.fresh {})).processOrder order outTrades with
  | .error _ => engine.setWorker id .faulted
  | .ok response =>
      let trades := response.outTrades.drop outTrades.length
      { engine.setEngine symbol response.engine with
        generated := Function.update engine.generated symbol
          (engine.generated symbol ++ trades) }.setWorker id
        (.recording symbol trades trades.length)

/-- `ShardedMatchingEngine::cancel`, one section under the mutex of the shard. -/
def cancel (engine : ShardedEngine config) (id : Fin config.workers) (symbol : Symbol)
    (orderId : UInt64) : ShardedEngine config :=
  match engine.engineOf symbol with
  | none => engine.returnWith id (.canceled false)
  | some matching =>
      match matching.cancel orderId with
      | .error _ => engine.setWorker id .faulted
      | .ok (matching', report) =>
          (engine.setEngine symbol matching').returnWith id
            (.canceled (decide (report.status = .canceled)))

def step (engine : ShardedEngine config) (event : ShardedEvent config) : ShardedEngine config :=
  match engine.workers event.worker with
  | .outside =>
      match event.call with
      | .submit symbol order outTrades => engine.submit event.worker symbol order outTrades
      | .cancel symbol orderId => engine.cancel event.worker symbol orderId
  | .recording symbol (trade :: trades) tradeCount =>
      { engine with tradeLog := engine.tradeLog.record symbol trade }.setWorker event.worker
        (.recording symbol trades tradeCount)
  | .recording _ [] tradeCount => engine.returnWith event.worker (.submitted tradeCount)
  | .faulted => engine

/-- `ShardedMatchingEngine::snapshot`; `exists` is whether there is one. -/
def snapshot (engine : ShardedEngine config) (symbol : Symbol) : Option ShardedSnapshot :=
  (engine.engineOf symbol).map ShardedSnapshot.of

section Fields

variable (engine : ShardedEngine config)

@[simp] theorem workers_setWorker (id : Fin config.workers) (point : SubmitPoint) :
    (engine.setWorker id point).workers = Function.update engine.workers id point := rfl

@[simp] theorem engineOf_setEngine_self (symbol : Symbol) (matching : MatchingEngine) :
    (engine.setEngine symbol matching).engineOf symbol = some matching := by
  simp [engineOf, setEngine]

theorem engineOf_setEngine_of_ne {symbol other : Symbol} (different : other ≠ symbol)
    (matching : MatchingEngine) :
    (engine.setEngine symbol matching).engineOf other = engine.engineOf other := by
  simp only [engineOf, setEngine]
  by_cases shared : shardFor other = shardFor symbol
  · rw [shared, Function.update_self, Function.update_of_ne different]
  · rw [Function.update_of_ne shared]

end Fields

/-! ### What a step can do -/

/-- A step of one worker. -/
inductive Acts (engine : ShardedEngine config) (event : ShardedEvent config) :
    ShardedEngine config → Prop where
  | stays (faulted : engine.workers event.worker = .faulted) : Acts engine event engine
  | faults (outside : engine.workers event.worker = .outside) (symbol : Symbol)
      (command : Command) (outTrades : List Trade) (fault : Fault)
      (failed : ((engine.engineOf symbol).getD (.fresh {})).apply command outTrades =
        .error fault) :
      Acts engine event (engine.setWorker event.worker .faulted)
  | submits (outside : engine.workers event.worker = .outside) {symbol : Symbol} {order : Order}
      {outTrades : List Trade} {response : Response}
      (called : event.call = .submit symbol order outTrades)
      (processed : ((engine.engineOf symbol).getD (.fresh {})).apply (.newOrder order) outTrades =
        .ok response) :
      Acts engine event
        ({ engine.setEngine symbol response.engine with
          generated := Function.update engine.generated symbol
            (engine.generated symbol ++ response.outTrades.drop outTrades.length) }.setWorker
          event.worker
          (.recording symbol (response.outTrades.drop outTrades.length)
            (response.outTrades.drop outTrades.length).length))
  | cancels (outside : engine.workers event.worker = .outside) (symbol : Symbol)
      (orderId : UInt64) (response : Response) {success : Bool}
      (canceled : ((engine.engineOf symbol).getD (.fresh {})).apply (.cancel orderId) [] =
        .ok response) :
      Acts engine event
        ((engine.setEngine symbol response.engine).returnWith event.worker (.canceled success))
  | misses (outside : engine.workers event.worker = .outside) :
      Acts engine event (engine.returnWith event.worker (.canceled false))
  | records {symbol : Symbol} {trade : Trade} {trades : List Trade} {tradeCount : Nat}
      (recording : engine.workers event.worker = .recording symbol (trade :: trades) tradeCount) :
      Acts engine event
        ({ engine with tradeLog := engine.tradeLog.record symbol trade }.setWorker event.worker
          (.recording symbol trades tradeCount))
  | returns {symbol : Symbol} {tradeCount : Nat}
      (recorded : engine.workers event.worker = .recording symbol [] tradeCount) :
      Acts engine event (engine.returnWith event.worker (.submitted tradeCount))

theorem step_acts (engine : ShardedEngine config) (event : ShardedEvent config) :
    engine.Acts event (engine.step event) := by
  unfold step
  cases point : engine.workers event.worker with
  | faulted => exact .stays point
  | recording symbol trades tradeCount =>
      cases trades with
      | nil => exact .returns point
      | cons trade trades => exact .records point
  | outside =>
      cases call : event.call with
      | submit symbol order outTrades =>
          dsimp only [submit]
          split
          · rename_i fault failed
            exact .faults point symbol (.newOrder order) outTrades fault failed
          · rename_i response processed
            exact .submits point call processed
      | cancel symbol orderId =>
          dsimp only [cancel]
          cases found : engine.engineOf symbol with
          | none => exact .misses point
          | some matching =>
              dsimp only
              have same : (engine.engineOf symbol).getD (.fresh {}) = matching := by
                rw [found, Option.getD_some]
              split
              · rename_i fault failed
                refine .faults point symbol (.cancel orderId) [] fault ?_
                simp only [same, MatchingEngine.apply, failed, bind, Except.bind]
              · rename_i matching' report canceled
                refine .cancels point symbol orderId ⟨matching', report, []⟩ ?_
                simp only [same, MatchingEngine.apply, canceled, bind, Except.bind, pure,
                  Except.pure]

end ShardedEngine

end Lob
