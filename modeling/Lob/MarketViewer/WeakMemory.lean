import Lob.MarketViewer
import Lob.SPSCQueue.WeakMemory

/-!
# The viewer under release and acquire

`Lob.MarketViewer` again, with the accesses to the queues and to `engine_done` in the memory
orders of the source. The viewer may read old values of `engine_done` and of the counters.
-/

namespace Lob

open ReleaseAcquire

inductive MarketProcess where
  | engine
  | viewer
  deriving DecidableEq

inductive MarketQueue where
  | trades
  | reports
  deriving DecidableEq

inductive MarketFlag where
  | engineDone
  deriving DecidableEq

/-- The members of the shared region that the engine and the viewer use. -/
def marketLayout (tradeCapacity reportCapacity : PowerOfTwo) :
    QueueLayout MarketProcess MarketQueue MarketFlag where
  Item
    | .trades => Trade
    | .reports => ExecutionReport
  capacity
    | .trades => tradeCapacity
    | .reports => reportCapacity
  producer _ := .engine
  consumer _ := .viewer
  apart _ := by decide
  setter _ := .engine

/-- The two processes. -/
structure WeakEngineViewer (tradeCapacity reportCapacity : PowerOfTwo) where
  engine : MatchingEngine
  /-- the commands that the engine has not taken yet -/
  toProcess : List Command
  publisher : PublisherPoint := .taking
  queues : WeakQueues (marketLayout tradeCapacity reportCapacity)
  viewer : ViewerPoint := .drainTrades false
  tradesSeen : UInt64 := 0
  reportsSeen : UInt64 := 0
  rejectedSeen : UInt64 := 0

/-- Whose step is next; `pick` chooses the store that its load returns. -/
inductive WeakEngineViewerEvent where
  | engine (pick : Nat)
  | viewer (headFirst : Bool) (pick : Nat)

/-- The next step of `SPSCQueue::empty`. -/
def WeakQueues.emptyStep {τ Q F : Type} [DecidableEq τ] [DecidableEq Q] [DecidableEq F]
    {layout : QueueLayout τ Q F} (state : WeakQueues layout) (thread : τ) (queue : Q)
    (headFirst : Bool) (pick : Nat) :
    EmptyTest → WeakQueues layout × EmptyTest × Option Bool
  | .start =>
      if headFirst then
        let (state, head) := state.look thread (.head queue) pick
        (state, .loadedHead head, none)
      else
        let (state, tail) := state.look thread (.tail queue) pick
        (state, .loadedTail tail, none)
  | .loadedHead head =>
      let (state, tail) := state.look thread (.tail queue) pick
      (state, .start, some (decide (head = tail)))
  | .loadedTail tail =>
      let (state, head) := state.look thread (.head queue) pick
      (state, .start, some (decide (head = tail)))

namespace WeakEngineViewer

variable {tradeCapacity reportCapacity : PowerOfTwo}

/-- Both processes before their first access to the queues. -/
def initial (engine : MatchingEngine) (commands : List Command) (start : MarketQueue → UInt64)
    (buffers : (cell : (marketLayout tradeCapacity reportCapacity).Cell) →
      (marketLayout tradeCapacity reportCapacity).Item cell.1) :
    WeakEngineViewer tradeCapacity reportCapacity where
  engine
  toProcess := commands
  queues := .initial _ start buffers

/-- `buffer_{}`. -/
def emptyBuffers : (cell : (marketLayout tradeCapacity reportCapacity).Cell) →
    (marketLayout tradeCapacity reportCapacity).Item cell.1
  | ⟨.trades, _⟩ => ({} : Trade)
  | ⟨.reports, _⟩ => ({} : ExecutionReport)

/-- The engine takes a command, with an empty vector of trades, or leaves its loop. -/
def takeStep (state : WeakEngineViewer tradeCapacity reportCapacity) :
    WeakEngineViewer tradeCapacity reportCapacity :=
  match state.toProcess with
  | [] => { state with queues := state.queues.setFlag .engineDone 1, publisher := .finished }
  | command :: rest =>
      match state.engine.apply command [] with
      | .ok response =>
          { state with
            engine := response.engine
            toProcess := rest
            publisher := .publishing response.outTrades response.report }
      | .error _ => { state with publisher := .faulted }

/-- `while (!try_push(item))`, and where the engine goes on after it. -/
def pushStep (state : WeakEngineViewer tradeCapacity reportCapacity) (queue : MarketQueue)
    (item : (marketLayout tradeCapacity reportCapacity).Item queue) (pick : Nat)
    (after : PublisherPoint) : WeakEngineViewer tradeCapacity reportCapacity :=
  let (queues, outcome) := state.queues.tryPushStep queue item pick
  match outcome with
  | some (.pushed _) => { state with queues, publisher := after }
  | _ => { state with queues }

/-- The main loop of the engine. -/
def engineStep (state : WeakEngineViewer tradeCapacity reportCapacity) (pick : Nat) :
    WeakEngineViewer tradeCapacity reportCapacity :=
  match state.publisher with
  | .taking => state.takeStep
  | .publishing (trade :: trades) report =>
      state.pushStep .trades trade pick (.publishing trades report)
  | .publishing [] report => state.pushStep .reports report pick .taking
  | .faulted => state
  | .finished => state

/-- `while (shared->trade_queue.try_pop(trade))`. -/
def drainTradesStep (state : WeakEngineViewer tradeCapacity reportCapacity) (gotAny : Bool)
    (pick : Nat) : WeakEngineViewer tradeCapacity reportCapacity :=
  let (queues, outcome) := state.queues.tryPopStep .trades pick
  match outcome with
  | some (.popped _) =>
      { state with
        queues
        viewer := .drainTrades true
        tradesSeen := state.tradesSeen + 1 }
  | some .empty => { state with queues, viewer := .drainReports gotAny }
  | _ => { state with queues }

/-- `while (shared->report_queue.try_pop(report))`. -/
def drainReportsStep (state : WeakEngineViewer tradeCapacity reportCapacity) (gotAny : Bool)
    (pick : Nat) : WeakEngineViewer tradeCapacity reportCapacity :=
  let (queues, outcome) := state.queues.tryPopStep .reports pick
  match outcome with
  | some (.popped report) =>
      { state with
        queues
        viewer := .drainReports true
        reportsSeen := state.reportsSeen + 1
        rejectedSeen :=
          if ExecutionReport.accepted report then state.rejectedSeen
          else state.rejectedSeen + 1 }
  | some .empty =>
      { state with
        queues
        viewer := if gotAny then .drainTrades false else .loadDone }
  | _ => { state with queues }

/-- The loop of the viewer. -/
def viewerStep (state : WeakEngineViewer tradeCapacity reportCapacity) (headFirst : Bool)
    (pick : Nat) : WeakEngineViewer tradeCapacity reportCapacity :=
  match state.viewer with
  | .drainTrades gotAny => state.drainTradesStep gotAny pick
  | .drainReports gotAny => state.drainReportsStep gotAny pick
  | .loadDone =>
      let (queues, done) := state.queues.look .viewer (.flag .engineDone) pick
      { state with
        queues
        viewer := if done ≠ 0 then .testTrades .start else .drainTrades false }
  | .testTrades test =>
      let (queues, test, answer) := state.queues.emptyStep .viewer .trades headFirst pick test
      { state with
        queues
        viewer :=
          match answer with
          | none => .testTrades test
          | some true => .testReports .start
          | some false => .drainTrades false }
  | .testReports test =>
      let (queues, test, answer) := state.queues.emptyStep .viewer .reports headFirst pick test
      { state with
        queues
        viewer :=
          match answer with
          | none => .testReports test
          | some true => .exited
          | some false => .drainTrades false }
  | .exited => state

def step (state : WeakEngineViewer tradeCapacity reportCapacity) :
    WeakEngineViewerEvent → WeakEngineViewer tradeCapacity reportCapacity
  | .engine pick => state.engineStep pick
  | .viewer headFirst pick => state.viewerStep headFirst pick

end WeakEngineViewer

end Lob
