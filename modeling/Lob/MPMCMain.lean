import Lob.MPMCQueue.Threads
import Lob.OrderGenerator
import Lob.ShardedEngine

/-!
# The program `mpmc_matching_main`

Producer threads push generated orders into one queue; consumer threads pop them and submit
each to the engine of its symbol. The main thread joins the producers, closes the queue, joins
the consumers and prints a summary.

A step of a thread is a step of the queue or of the sharded engine, where the thread is in one
of their calls, or one operation of its own. What a generator draws and which thread a
`notify_one` wakes are part of the event. A thread that is blocked on a condition variable does
nothing when its turn comes; a spurious wakeup is an event of its own.

The program also remembers the orders in the order in which the engines have matched them.
-/

namespace Lob

/-- `struct SymbolOrder`. -/
structure SymbolOrder where
  symbol : Symbol
  order : Order
  deriving DecidableEq

/-- `struct Args`; the constructor of the queue refuses a capacity of zero. -/
structure MPMCArgs where
  producers : Nat := 4
  consumers : Nat := 4
  ordersPerProducer : Nat := 20000
  queueCapacity : Nat := 4096
  queuePositive : 0 < queueCapacity

namespace MPMCArgs

variable (args : MPMCArgs)

/-- The threads that use the queue: the consumers, the producers and the main thread. -/
def threads : Nat := args.consumers + args.producers + 1

def consumerThread (id : Fin args.consumers) : Fin args.threads :=
  ⟨id, Nat.lt_succ_of_lt (Nat.lt_add_right _ id.isLt)⟩

def producerThread (id : Fin args.producers) : Fin args.threads :=
  ⟨args.consumers + id, Nat.lt_succ_of_lt (Nat.add_lt_add_left id.isLt _)⟩

def mainThread : Fin args.threads := ⟨args.consumers + args.producers, Nat.lt_succ_self _⟩

abbrev sharded : ShardedConfig := { workers := args.consumers }

end MPMCArgs

/-- `kSymbols` of `mpmc_matching_main`. -/
def mpmcSymbols : Vector Symbol 6 :=
  #v["AAPL", "MSFT", "GOOG", "AMZN", "TSLA", "NVDA"].map
    (fun literal => .ofText (asciiBytes literal))

/-- Where a producer thread is. -/
inductive MPMCProducerPoint where
  /-- at the head of its loop -/
  | generating (i : Nat)
  /-- in `push` -/
  | pushing (i : Nat)
  /-- `produced.fetch_add` comes next -/
  | counting (i : Nat)
  | returned
  deriving DecidableEq

/-- Where a consumer thread is. -/
inductive MPMCConsumerPoint where
  /-- at the head of its loop -/
  | calling
  /-- in `pop` -/
  | popping
  /-- in `pop`, which has taken this order -/
  | leaving (item : SymbolOrder)
  /-- in `submit` -/
  | submitting (item : SymbolOrder)
  /-- `trades_generated.fetch_add` comes next -/
  | countingTrades (tradeCount : Nat)
  /-- `consumed.fetch_add` comes next -/
  | countingOrder
  | exited
  deriving DecidableEq

/-- What the summary shows of one symbol. -/
structure SymbolSummary where
  symbol : Symbol
  book : Option ShardedSnapshot
  lastTrades : Nat
  mostRecent : Option Trade
  deriving DecidableEq

/-- The summary, without the times. -/
structure MPMCSummary where
  produced : UInt64
  consumed : UInt64
  trades : UInt64
  symbols : List SymbolSummary
  deriving DecidableEq

/-- Where the main thread is. -/
inductive MPMCMainPoint where
  /-- about to join the producer with this number -/
  | joiningProducers (index : Nat)
  /-- in `close` -/
  | closing
  /-- about to join the consumer with this number -/
  | joiningConsumers (index : Nat)
  | returned (summary : MPMCSummary)
  deriving DecidableEq

/-- An order that an engine has processed. -/
structure SubmittedOrder where
  item : SymbolOrder
  response : Response

/-- The program; `submitted` is not part of it. -/
structure MPMCMain (args : MPMCArgs) where
  queue : MPMCRun SymbolOrder args.threads
  engine : ShardedEngine args.sharded
  idGen : UInt64 := 1
  produced : UInt64 := 0
  consumed : UInt64 := 0
  tradesGenerated : UInt64 := 0
  producers : Fin args.producers → MPMCProducerPoint := fun _ => .generating 0
  consumers : Fin args.consumers → MPMCConsumerPoint := fun _ => .calling
  main : MPMCMainPoint := .joiningProducers 0
  submitted : List SubmittedOrder := []

/-- Whose step is next. A producer at the head of its loop draws a symbol and the values of its
order; `woken` is the thread that a `notify_one` of this step picks. -/
inductive MPMCMainEvent (args : MPMCArgs) where
  | main (woken : Fin args.threads)
  | producer (id : Fin args.producers) (symbol : Fin 6) (draw : Draw 9900 10100 100)
      (woken : Fin args.threads)
  | consumer (id : Fin args.consumers) (woken : Fin args.threads)
  /-- a blocked thread wakes up although nobody has notified it -/
  | spurious (thread : Fin args.threads)

namespace MPMCMain

variable {args : MPMCArgs}

def initial (args : MPMCArgs) : MPMCMain args where
  queue := .initial args.queueCapacity args.queuePositive args.threads
  engine := .initial args.sharded

def setProducer (state : MPMCMain args) (id : Fin args.producers) (point : MPMCProducerPoint) :
    MPMCMain args :=
  { state with producers := Function.update state.producers id point }

def setConsumer (state : MPMCMain args) (id : Fin args.consumers) (point : MPMCConsumerPoint) :
    MPMCMain args :=
  { state with consumers := Function.update state.consumers id point }

/-- A step of `producerThread`. -/
def producerStep (state : MPMCMain args) (id : Fin args.producers) (symbol : Fin 6)
    (draw : Draw 9900 10100 100) (woken : Fin args.threads) : MPMCMain args :=
  let thread := args.producerThread id
  match state.producers id with
  | .generating i =>
      if i < args.ordersPerProducer then
        { state with
          idGen := state.idGen + 1
          queue := state.queue.step (.call thread
            (.push ⟨mpmcSymbols[symbol], producerOrder state.idGen draw⟩)) }.setProducer id
          (.pushing i)
      else state.setProducer id .returned
  | .pushing i =>
      match state.queue.points thread with
      | .locking _ =>
          let queue := state.queue.go thread woken
          { state with queue }.setProducer id
            (match queue.points thread with
              -- the queue was closed, so `push` returns false
              | .outside => .returned
              | _ => .pushing i)
      | .notifyNotEmpty =>
          { state with queue := state.queue.go thread woken }.setProducer id (.counting i)
      | _ => state
  | .counting i =>
      { state with produced := state.produced + 1 }.setProducer id (.generating (i + 1))
  | .returned => state

/-- A step of `submit`, with the empty vector `scratch`. -/
def submitStep (state : MPMCMain args) (id : Fin args.consumers) (item : SymbolOrder) :
    MPMCMain args :=
  let engine := state.engine.step ⟨id, .submit item.symbol item.order []⟩
  match state.engine.workers id with
  | .outside =>
      { state with
        engine
        submitted := state.submitted ++
          (((state.engine.engineOf item.symbol).getD (.fresh {})).processOrder item.order
            []).toOption.toList.map (SubmittedOrder.mk item) }
  | .recording _ [] tradeCount => { state with engine }.setConsumer id (.countingTrades tradeCount)
  | _ => { state with engine }

/-- A step of `consumerThread`. -/
def consumerStep (state : MPMCMain args) (id : Fin args.consumers) (woken : Fin args.threads) :
    MPMCMain args :=
  let thread := args.consumerThread id
  match state.consumers id with
  | .calling =>
      { state with queue := state.queue.step (.call thread .pop) }.setConsumer id .popping
  | .popping =>
      match state.queue.points thread with
      | .locking _ =>
          { state with queue := state.queue.go thread woken }.setConsumer id
            (match state.queue.queue.pop with
              | none => .popping
              | some (_, some item) => .leaving item
              | some (_, none) => .exited)
      | _ => state
  | .leaving item =>
      { state with queue := state.queue.go thread woken }.setConsumer id (.submitting item)
  | .submitting item => state.submitStep id item
  | .countingTrades tradeCount =>
      { state with
        tradesGenerated := state.tradesGenerated + UInt64.ofNat tradeCount }.setConsumer id
        .countingOrder
  | .countingOrder => { state with consumed := state.consumed + 1 }.setConsumer id .calling
  | .exited => state

/-- What the main thread prints at the end. -/
def summary (state : MPMCMain args) : MPMCSummary where
  produced := state.produced
  consumed := state.consumed
  trades := state.tradesGenerated
  symbols := mpmcSymbols.toList.map (fun symbol =>
    { symbol
      book := state.engine.snapshot symbol
      lastTrades := state.engine.tradeLog.count symbol
      mostRecent := (state.engine.tradeLog.recent symbol 3).getLast? })

/-- A step of `main`. -/
def mainStep (state : MPMCMain args) (woken : Fin args.threads) : MPMCMain args :=
  match state.main with
  | .joiningProducers index =>
      if inside : index < args.producers then
        if state.producers ⟨index, inside⟩ = .returned then
          { state with main := .joiningProducers (index + 1) }
        else state
      else
        { state with
          queue := state.queue.step (.call args.mainThread .close)
          main := .closing }
  | .closing =>
      let queue := state.queue.go args.mainThread woken
      { state with
        queue
        main := match queue.points args.mainThread with
          | .outside => .joiningConsumers 0
          | _ => .closing }
  | .joiningConsumers index =>
      if inside : index < args.consumers then
        if state.consumers ⟨index, inside⟩ = .exited then
          { state with main := .joiningConsumers (index + 1) }
        else state
      else { state with main := .returned state.summary }
  | .returned _ => state

def step (state : MPMCMain args) : MPMCMainEvent args → MPMCMain args
  | .main woken => state.mainStep woken
  | .producer id symbol draw woken => state.producerStep id symbol draw woken
  | .consumer id woken => state.consumerStep id woken
  | .spurious thread =>
      match state.queue.points thread with
      | .blockedPush _ => { state with queue := state.queue.go thread thread }
      | .blockedPop => { state with queue := state.queue.go thread thread }
      | _ => state

end MPMCMain

end Lob
