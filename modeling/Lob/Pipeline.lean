import Lob.IdleExit
import Lob.MarketViewer.Delivery
import Lob.Telemetry

/-!
# The three processes

`feed_handler`, `matching_engine_main` and `market_viewer` at work on one shared region and
one journal. Each access to shared memory and each system call is one step. `FeedEngine`
supplies the order queue with its two ends, `EngineViewer` the two outgoing queues with
theirs; in between the engine process journals a command, applies it, publishes what came
of it and moves the counters of the header, one store at a time.

What the environment decides comes with the event: whether a signal has arrived, what the
timer shows, what a `write` takes and whether `fdatasync` fails. The engine process may be
killed between any two of its steps. Its bytes in the file survive; `synced` is the length
of the file at the last successful `fdatasync`, which a power cut leaves intact.
-/

namespace Lob

open Journal

/-! ### The header -/

/-- The stores of the main loop after a command, in their order. -/
inductive HeaderStore where
  | processed
  | outcome
  | canceled
  | trades
  | bestBid
  | bestAsk
  | lastSequence
  deriving DecidableEq, Repr

namespace HeaderStore

/-- The store that follows; none after the last. -/
def next : HeaderStore → Option HeaderStore
  | .processed => some .outcome
  | .outcome => some .canceled
  | .canceled => some .trades
  | .trades => some .bestBid
  | .bestBid => some .bestAsk
  | .bestAsk => some .lastSequence
  | .lastSequence => none

/-- The stores that come before. -/
def earlier : HeaderStore → List HeaderStore
  | .processed => []
  | .outcome => [.processed]
  | .canceled => [.processed, .outcome]
  | .trades => [.processed, .outcome, .canceled]
  | .bestBid => [.processed, .outcome, .canceled, .trades]
  | .bestAsk => [.processed, .outcome, .canceled, .trades, .bestBid]
  | .lastSequence => [.processed, .outcome, .canceled, .trades, .bestBid, .bestAsk]

theorem earlier_next {store following : HeaderStore} (follows : store.next = some following) :
    following.earlier = store.earlier ++ [store] := by
  cases store <;> cases follows <;> rfl

theorem eq_lastSequence {store : HeaderStore} (last : store.next = none) :
    store = .lastSequence := by
  cases store <;> first | rfl | contradiction

end HeaderStore

namespace SharedHeader

/-- One store of the main loop; `canceled_orders` is stored for a cancellation only. -/
def store (header : SharedHeader) (response : Response) : HeaderStore → SharedHeader
  | .processed => { header with processedCommands := header.processedCommands + 1 }
  | .outcome =>
      if response.report.accepted then
        { header with acceptedCommands := header.acceptedCommands + 1 }
      else { header with rejectedCommands := header.rejectedCommands + 1 }
  | .canceled =>
      if response.report.status = .canceled then
        { header with canceledOrders := header.canceledOrders + 1 }
      else header
  | .trades =>
      { header with
        tradesGenerated := header.tradesGenerated + UInt64.ofNat response.outTrades.length }
  | .bestBid =>
      { header with
        book := { header.book with bestBid := (publishBook response.engine).bestBid } }
  | .bestAsk =>
      { header with
        book := { header.book with bestAsk := (publishBook response.engine).bestAsk } }
  | .lastSequence =>
      { header with
        book := { header.book with lastSequence := (publishBook response.engine).lastSequence } }

/-- The header when `store` comes next. -/
def upTo (header : SharedHeader) (response : Response) (store : HeaderStore) : SharedHeader :=
  store.earlier.foldl (fun header earlier => header.store response earlier) header

theorem upTo_next (header : SharedHeader) (response : Response) {store following : HeaderStore}
    (follows : store.next = some following) :
    (header.upTo response store).store response store = header.upTo response following := by
  rw [upTo, upTo, HeaderStore.earlier_next follows, List.foldl_append]
  rfl

/-- After the last store the command is counted. -/
theorem upTo_last (header : SharedHeader) (response : Response) {store : HeaderStore}
    (last : store.next = none) :
    (header.upTo response store).store response store = header.count response := by
  rw [HeaderStore.eq_lastSequence last]
  simp only [upTo, HeaderStore.earlier, List.foldl, SharedHeader.store, SharedHeader.count]
  split <;> split <;> rfl

end SharedHeader

/-! ### The engine process -/

/-- Where `matching_engine_main` is. -/
inductive MainStage where
  /-- at the head of its loop, in `try_pop` or behind a failed pop -/
  | looping
  /-- in `writeAll`, with this many bytes of the record taken -/
  | writing (command : Command) (written : Nat)
  /-- the record is written and `fdatasync` comes next -/
  | syncing (command : Command)
  /-- the command is journaled if it has to be -/
  | applying (command : Command)
  /-- pushing the trades and the report -/
  | publishing (response : Response)
  /-- at this store to the header -/
  | counting (response : Response) (store : HeaderStore)
  /-- out of the loop -/
  | leaving
  /-- about to store `engine_done` -/
  | storingDone
  | exited
  /-- an assertion of the engine has failed -/
  | faulted

/-- Where the process goes on when its loop has come to `point`. -/
def EnginePoint.mainStage (journaling : Bool) : EnginePoint → MainStage
  | .processing command => if journaling then .writing command 0 else .applying command
  | .exited => .leaving
  | _ => .looping

/-- What `parseArgs` leaves to the loop. -/
structure LoopArgs where
  idleExitMs : Int
  syncJournal : Bool
  deriving DecidableEq, Repr

/-- What the environment does in a step of the engine process, as far as it matters there. -/
structure EngineChoice where
  /-- `g_stop` is set -/
  stop : Bool := false
  /-- what the idle timer shows -/
  idleFor : Int := 0
  write : WriteOutcome := .wrote kRecordSize
  syncFailure : Option String := none
  deriving DecidableEq, Repr

/-- The three processes and the journal file. -/
structure Pipeline (orderCapacity tradeCapacity reportCapacity : PowerOfTwo) where
  input : FeedEngine orderCapacity
  output : EngineViewer tradeCapacity reportCapacity
  stage : MainStage := .looping
  journal : EventJournal
  file : List UInt8
  /-- the length of the file at the last successful `fdatasync` -/
  synced : Nat := 0
  header : SharedHeader
  journalFailed : Bool := false
  /-- the engine process has not been killed -/
  alive : Bool := true

/-- Whose step is next. -/
inductive PipelineEvent where
  | feed
  | engine (choice : EngineChoice)
  | kill
  | viewer (headFirst : Bool)
  deriving DecidableEq, Repr

namespace Pipeline

variable {orderCapacity tradeCapacity reportCapacity : PowerOfTwo}

/-- The contents of the region before the first message; the counters of a queue are equal. -/
structure Region (orderCapacity tradeCapacity reportCapacity : PowerOfTwo) where
  orderCounter : UInt64 := 0
  orderBuffer : Vector Command orderCapacity.value.toNat
  tradeCounter : UInt64 := 0
  tradeBuffer : Vector Trade tradeCapacity.value.toNat
  reportCounter : UInt64 := 0
  reportBuffer : Vector ExecutionReport reportCapacity.value.toNat

/-- What `new (addr) SharedRegion()` leaves. -/
def Region.constructed : Region orderCapacity tradeCapacity reportCapacity where
  orderBuffer := Vector.replicate _ (.newOrder {})
  tradeBuffer := Vector.replicate _ {}
  reportBuffer := Vector.replicate _ {}

/-- The engine process is at the head of its loop, the feed has all its commands ahead. -/
def initial (main : EngineMain) (commands : List Command)
    (region : Region orderCapacity tradeCapacity reportCapacity) :
    Pipeline orderCapacity tradeCapacity reportCapacity where
  input := .initial region.orderCounter region.orderBuffer commands
  output := .initial main.engine [] region.tradeCounter region.tradeBuffer region.reportCounter
    region.reportBuffer
  journal := main.journal
  file := main.file
  header := main.header

/-- `while (!g_stop)` and `try_pop`, up to a popped message. -/
def loopStep (state : Pipeline orderCapacity tradeCapacity reportCapacity) (args : LoopArgs)
    (choice : EngineChoice) : Pipeline orderCapacity tradeCapacity reportCapacity :=
  if choice.stop ∧ state.input.engine = .popping ∧ state.input.orders.system.consumer = .idle then
    { state with stage := .leaving }
  else
    let input := state.input.engineStep args.idleExitMs choice.idleFor
    { state with input, stage := input.engine.mainStage state.journal.isOpen }

/-- A failed append breaks out of the loop. -/
def failAppend (state : Pipeline orderCapacity tradeCapacity reportCapacity) (message : String) :
    Pipeline orderCapacity tradeCapacity reportCapacity :=
  { state with
    journal := { state.journal with lastError := message }
    journalFailed := true
    stage := .leaving }

/-- One `write` of `writeAll`; with the last byte `appendRecord` moves the ordinal on. -/
def writeStep (state : Pipeline orderCapacity tradeCapacity reportCapacity) (command : Command)
    (written : Nat) : WriteOutcome → Pipeline orderCapacity tradeCapacity reportCapacity
  | .interrupted => state
  | .failed strerror => state.failAppend ("write journal: " ++ strerror)
  | .wrote count =>
      let taken := min count (kRecordSize - written)
      if taken = 0 then state.failAppend "write journal: zero-byte write"
      else
        let record := encodeCommand state.journal.nextOrdinal command
        let file := state.file ++ (record.drop written).take taken
        if written + taken < kRecordSize then
          { state with file, stage := .writing command (written + taken) }
        else
          { state with
            file
            journal := { state.journal with nextOrdinal := state.journal.nextOrdinal + 1 }
            stage :=
              if state.journal.durability = .fdatasyncEachRecord then .syncing command
              else .applying command }

/-- The `fdatasync` behind a record. -/
def syncStep (state : Pipeline orderCapacity tradeCapacity reportCapacity) (command : Command) :
    Option String → Pipeline orderCapacity tradeCapacity reportCapacity
  | some strerror => state.failAppend ("fdatasync journal: " ++ strerror)
  | none => { state with synced := state.file.length, stage := .applying command }

/-- `processOrder` or `cancel` with an empty vector of trades. -/
def applyStep (state : Pipeline orderCapacity tradeCapacity reportCapacity) (command : Command) :
    Pipeline orderCapacity tradeCapacity reportCapacity :=
  match state.output.engine.apply command [] with
  | .ok response =>
      { state with
        output :=
          { state.output with
            engine := response.engine
            publisher := .publishing response.outTrades response.report }
        stage := .publishing response }
  | .error _ => { state with stage := .faulted }

/-- A step of a `try_push`, of the next trade or of the report. -/
def publishStep (state : Pipeline orderCapacity tradeCapacity reportCapacity)
    (response : Response) : Pipeline orderCapacity tradeCapacity reportCapacity :=
  let output := state.output.engineStep
  { state with
    output
    stage :=
      if output.publisher = .taking then .counting response .processed else .publishing response }

/-- A store to the header; the last one ends the iteration. -/
def countStep (state : Pipeline orderCapacity tradeCapacity reportCapacity) (response : Response)
    (store : HeaderStore) (args : LoopArgs) (choice : EngineChoice) :
    Pipeline orderCapacity tradeCapacity reportCapacity :=
  let header := state.header.store response store
  match store.next with
  | some following => { state with header, stage := .counting response following }
  | none =>
      { state with
        header
        input := state.input.engineStep args.idleExitMs choice.idleFor
        stage := .looping }

/-- The final sync of a buffered journal. -/
def finishStep (state : Pipeline orderCapacity tradeCapacity reportCapacity) (args : LoopArgs)
    (syncFailure : Option String) : Pipeline orderCapacity tradeCapacity reportCapacity :=
  if state.journal.isOpen && !args.syncJournal then
    match syncFailure with
    | some strerror =>
        { state with
          journal := { state.journal with lastError := "fdatasync journal: " ++ strerror }
          journalFailed := true
          stage := .storingDone }
    | none => { state with synced := state.file.length, stage := .storingDone }
  else { state with stage := .storingDone }

/-- The next step of the engine process. -/
def engineStep (args : LoopArgs) (choice : EngineChoice)
    (state : Pipeline orderCapacity tradeCapacity reportCapacity) :
    Pipeline orderCapacity tradeCapacity reportCapacity :=
  match state.stage with
  | .looping => state.loopStep args choice
  | .writing command written => state.writeStep command written choice.write
  | .syncing command => state.syncStep command choice.syncFailure
  | .applying command => state.applyStep command
  | .publishing response => state.publishStep response
  | .counting response store => state.countStep response store args choice
  | .leaving => state.finishStep args choice.syncFailure
  | .storingDone =>
      { state with
        output := { state.output with engineDone := true, publisher := .finished }
        stage := .exited }
  | .exited => state
  | .faulted => state

def step (args : LoopArgs) (state : Pipeline orderCapacity tradeCapacity reportCapacity) :
    PipelineEvent → Pipeline orderCapacity tradeCapacity reportCapacity
  | .feed => { state with input := state.input.feedStep }
  | .engine choice => if state.alive then state.engineStep args choice else state
  | .kill => { state with alive := false }
  | .viewer headFirst => { state with output := state.output.viewerStep headFirst }

/-- The status with which the engine process ends. -/
def exitStatus (state : Pipeline orderCapacity tradeCapacity reportCapacity) : UInt8 :=
  if state.journalFailed then 2 else 0

end Pipeline

end Lob
