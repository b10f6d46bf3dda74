import Lob.OrderGenerator
import Lob.PartitionedEngine

/-!
# The program `partitioned_matching_main`

The main thread, the producer threads and the workers of the engine that they share. The
program starts its producers together, joins them, waits until the engine is idle, reads the
statistics, validates the book of every symbol, shuts the engine down and returns whether
everything was in order.

A step of a thread is a step of the engine, where the thread is in a call of the engine, or
one operation of its own. The numbers that the generators of the producers draw are part of
the event.
-/

namespace Lob

/-- `struct Args`, as `parseArgs` lets it through; the seed is left out. -/
structure PartitionedArgs where
  producers : Nat
  shards : PowerOfTwo
  ordersPerProducer : Nat
  queueCapacity : Nat
  advancedOrders : Bool := false
  producersPositive : 0 < producers
  ordersPositive : 0 < ordersPerProducer
  queuePositive : 0 < queueCapacity
  fits : ordersPerProducer ≤ (2 ^ 64 - 1) / producers

namespace PartitionedArgs

/-- The engine of the program; the main thread is the one that waits and shuts down. -/
abbrev config (args : PartitionedArgs) : PartitionedConfig where
  shardCount := args.shards
  queueCapacity := args.queueCapacity
  queuePositive := args.queuePositive
  producers := args.producers
  waiters := 1
  closers := 1

/-- The main thread, in `waitUntilIdle`. -/
def waiter (args : PartitionedArgs) : Fin args.config.waiters := ⟨0, Nat.one_pos⟩

/-- The main thread, in `shutdown`. -/
def closer (args : PartitionedArgs) : Fin args.config.closers := ⟨0, Nat.one_pos⟩

def totalOrders (args : PartitionedArgs) : UInt64 :=
  UInt64.ofNat args.producers * UInt64.ofNat args.ordersPerProducer

/-- `id_base + i`. -/
def orderId (args : PartitionedArgs) (producer : Fin args.producers) (i : Nat) : UInt64 :=
  UInt64.ofNat producer * UInt64.ofNat args.ordersPerProducer + 1 + UInt64.ofNat i

end PartitionedArgs

/-- The symbols that the producers choose from. -/
def partitionedSymbols : Vector Symbol 8 :=
  #v["AAPL", "MSFT", "GOOG", "AMZN", "TSLA", "NVDA", "META", "ORCL"].map
    (fun literal => .ofText (asciiBytes literal))

/-- Where a producer thread is. -/
inductive DriverPoint where
  /-- `ready.fetch_add` comes next -/
  | starting
  /-- waits for `start` -/
  | waiting
  /-- at the head of its loop -/
  | generating (i : Nat)
  /-- in `enqueue`, with the order of this iteration -/
  | enqueueing (i : Nat)
  /-- `enqueue` has returned false, the store to `ingress_failed` comes next -/
  | failing
  | returned
  deriving DecidableEq

/-- Where the main thread is. -/
inductive PartitionedMainPoint where
  /-- waits until all producers are ready -/
  | gathering
  /-- about to join the producer with this number -/
  | joining (index : Nat)
  /-- in `waitUntilIdle` -/
  | draining
  /-- `stats` comes next -/
  | reading
  /-- these symbols are still to be validated -/
  | validating (symbols : List Symbol) (ok : Bool)
  /-- in `shutdown` -/
  | closing (ok : Bool)
  | returned (status : Nat)
  deriving DecidableEq

/-- The program; `printed` holds what the line with the statistics shows. -/
structure PartitionedMain (args : PartitionedArgs) where
  engine : PartitionedEngine args.config
  drivers : Fin args.producers → DriverPoint := fun _ => .starting
  ready : Nat := 0
  start : Bool := false
  ingressFailed : Bool := false
  main : PartitionedMainPoint := .gathering
  printed : Option PartitionedEngineStats := none

/-- Whose step is next. A producer at the head of its loop draws a symbol and the values of its
order. -/
inductive PartitionedMainEvent (args : PartitionedArgs) where
  | main
  | producer (id : Fin args.producers) (symbol : Fin 8) (draw : Draw 9950 10050 250)
  | worker (id : args.config.ShardId)

namespace PartitionedMain

variable {args : PartitionedArgs}

def initial (args : PartitionedArgs) : PartitionedMain args where
  engine := .initial args.config

def setDriver (state : PartitionedMain args) (id : Fin args.producers) (point : DriverPoint) :
    PartitionedMain args :=
  { state with drivers := Function.update state.drivers id point }

/-- The test of the statistics, before the books are validated. -/
def statsOk (state : PartitionedMain args) : Bool :=
  !state.ingressFailed && decide (state.engine.stats.submitted = args.totalOrders) &&
    decide (state.engine.stats.processed = args.totalOrders) &&
    decide (state.engine.stats.pending = 0)

/-- A step inside `enqueue`; the call returns true where it has counted its command. -/
def enqueueStep (state : PartitionedMain args) (id : Fin args.producers) (i : Nat)
    (call : PartitionedCall) : PartitionedMain args :=
  let engine := state.engine.producerStep id call
  { state with engine }.setDriver id
    (match state.engine.producers id with
      | .inserted _ => .generating (i + 1)
      | _ => if engine.producers id = ProducerPoint.idle then .failing else .enqueueing i)

/-- A step of a producer thread. -/
def producerStep (state : PartitionedMain args) (id : Fin args.producers) (symbol : Fin 8)
    (draw : Draw 9950 10050 250) : PartitionedMain args :=
  let call (i : Nat) : PartitionedCall :=
    .enqueue partitionedSymbols[symbol]
      (generateOrder (args.orderId id i) draw args.advancedOrders)
  match state.drivers id with
  | .starting => { state with ready := state.ready + 1 }.setDriver id .waiting
  | .waiting => if state.start then state.setDriver id (.generating 0) else state
  | .generating i =>
      if i < args.ordersPerProducer then state.enqueueStep id i (call i)
      else state.setDriver id .returned
  | .enqueueing i => state.enqueueStep id i (call i)
  | .failing => { state with ingressFailed := true }.setDriver id .returned
  | .returned => state

/-- A step of the main thread. -/
def mainStep (state : PartitionedMain args) : PartitionedMain args :=
  match state.main with
  | .gathering =>
      if state.ready = args.producers then { state with start := true, main := .joining 0 }
      else state
  | .joining index =>
      if inside : index < args.producers then
        if state.drivers ⟨index, inside⟩ = .returned then
          { state with main := .joining (index + 1) }
        else state
      else { state with main := .draining }
  | .draining =>
      let engine := state.engine.waiterStep args.waiter
      { state with
        engine
        main :=
          if state.engine.waiters args.waiter ≠ .outside ∧
              engine.waiters args.waiter = .outside then
            .reading
          else .draining }
  | .reading =>
      { state with
        printed := some state.engine.stats
        main := .validating partitionedSymbols.toList state.statsOk }
  | .validating (symbol :: symbols) ok =>
      { state with main := .validating symbols (ok && state.engine.validate symbol) }
  | .validating [] ok => { state with main := .closing ok }
  | .closing ok =>
      -- a second `shutdown` would return at once
      let engine := state.engine.closerStep args.closer
      { state with
        engine
        main :=
          if engine.closers args.closer = .finished ∨
              (state.engine.closers args.closer = .outside ∧ state.engine.accepting = false) then
            .returned (if ok then 0 else 2)
          else .closing ok }
  | .returned _ => state

def step (state : PartitionedMain args) : PartitionedMainEvent args → PartitionedMain args
  | .main => state.mainStep
  | .producer id symbol draw => state.producerStep id symbol draw
  | .worker id => { state with engine := state.engine.workerStep id }

end PartitionedMain

end Lob
