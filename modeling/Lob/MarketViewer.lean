import Lob.MatchingEngine
import Lob.SPSCQueue

/-!
# The market viewer

The main loop of `matching_engine_main` from the point where it has taken a command, and
the loop of `market_viewer`. The two processes share `trade_queue`, `report_queue` and
`engine_done`, and every access to them is one step. For each command the engine pushes the
trades and then the report, each until `try_push` returns true; `engine_done` is stored
after the last command. The viewer drains one queue after the other. Only when it has
drained nothing does it load `engine_done` and test both queues.

The commands that the main loop processes are given. What it does between two of them, and
the statistics that the viewer prints, touch none of the three.
-/

namespace Lob

/-- Where the engine process is in its main loop. -/
inductive PublisherPoint where
  /-- between two commands -/
  | taking
  /-- the trades that are not pushed yet, and the report that follows them -/
  | publishing (trades : List Trade) (report : ExecutionReport)
  /-- an assertion of the engine has failed -/
  | faulted
  /-- `engine_done` is stored -/
  | finished
  deriving DecidableEq, Repr

/-- Where the viewer is in its loop; `gotAny` is `got_any`. -/
inductive ViewerPoint where
  | drainTrades (gotAny : Bool)
  | drainReports (gotAny : Bool)
  | loadDone
  | testTrades (test : EmptyTest)
  | testReports (test : EmptyTest)
  /-- out of the loop -/
  | exited
  deriving DecidableEq, Repr

/-- The two processes. -/
structure EngineViewer (tradeCapacity reportCapacity : PowerOfTwo) where
  engine : MatchingEngine
  /-- the commands that the engine has not taken yet -/
  toProcess : List Command
  publisher : PublisherPoint := .taking
  tradeQueue : SPSCRun Trade tradeCapacity
  reportQueue : SPSCRun ExecutionReport reportCapacity
  engineDone : Bool := false
  viewer : ViewerPoint := .drainTrades false
  tradesSeen : UInt64 := 0
  reportsSeen : UInt64 := 0
  rejectedSeen : UInt64 := 0

/-- Whose step is next. -/
inductive EngineViewerEvent where
  | engine
  | viewer (headFirst : Bool)
  deriving DecidableEq, Repr

namespace EngineViewer

variable {tradeCapacity reportCapacity : PowerOfTwo}

/-- Both processes before their first access to the queues. -/
def initial (engine : MatchingEngine) (commands : List Command) (tradeCounter : UInt64)
    (tradeBuffer : Vector Trade tradeCapacity.value.toNat) (reportCounter : UInt64)
    (reportBuffer : Vector ExecutionReport reportCapacity.value.toNat) :
    EngineViewer tradeCapacity reportCapacity where
  engine
  toProcess := commands
  tradeQueue := .initial tradeCounter tradeBuffer
  reportQueue := .initial reportCounter reportBuffer

/-- The engine takes a command, with an empty vector of trades, or leaves its loop. -/
def takeStep (state : EngineViewer tradeCapacity reportCapacity) :
    EngineViewer tradeCapacity reportCapacity :=
  match state.toProcess with
  | [] => { state with engineDone := true, publisher := .finished }
  | command :: rest =>
      match state.engine.apply command [] with
      | .ok response =>
          { state with
            engine := response.engine
            toProcess := rest
            publisher := .publishing response.outTrades response.report }
      | .error _ => { state with publisher := .faulted }

/-- The main loop of the engine. -/
def engineStep (state : EngineViewer tradeCapacity reportCapacity) :
    EngineViewer tradeCapacity reportCapacity :=
  match state.publisher with
  | .taking => state.takeStep
  | .publishing (trade :: trades) report =>
      { state with
        tradeQueue := state.tradeQueue.step (.producer trade)
        publisher :=
          if state.tradeQueue.completesPush trade then .publishing trades report
          else .publishing (trade :: trades) report }
  | .publishing [] report =>
      { state with
        reportQueue := state.reportQueue.step (.producer report)
        publisher :=
          if state.reportQueue.completesPush report then .taking else .publishing [] report }
  | .faulted => state
  | .finished => state

/-- `while (shared->trade_queue.try_pop(trade))`. -/
def drainTradesStep (state : EngineViewer tradeCapacity reportCapacity) (gotAny : Bool) :
    EngineViewer tradeCapacity reportCapacity :=
  let tradeQueue := state.tradeQueue.step .consumer
  match (state.tradeQueue.system.step .consumer).2 with
  | some (.popped _) =>
      { state with
        tradeQueue
        viewer := .drainTrades true
        tradesSeen := state.tradesSeen + 1 }
  | some .empty => { state with tradeQueue, viewer := .drainReports gotAny }
  | _ => { state with tradeQueue }

/-- `while (shared->report_queue.try_pop(report))`. -/
def drainReportsStep (state : EngineViewer tradeCapacity reportCapacity) (gotAny : Bool) :
    EngineViewer tradeCapacity reportCapacity :=
  let reportQueue := state.reportQueue.step .consumer
  match (state.reportQueue.system.step .consumer).2 with
  | some (.popped report) =>
      { state with
        reportQueue
        viewer := .drainReports true
        reportsSeen := state.reportsSeen + 1
        rejectedSeen :=
          if report.accepted then state.rejectedSeen else state.rejectedSeen + 1 }
  | some .empty =>
      { state with
        reportQueue
        viewer := if gotAny then .drainTrades false else .loadDone }
  | _ => { state with reportQueue }

/-- The loop of the viewer. -/
def viewerStep (state : EngineViewer tradeCapacity reportCapacity) (headFirst : Bool) :
    EngineViewer tradeCapacity reportCapacity :=
  match state.viewer with
  | .drainTrades gotAny => state.drainTradesStep gotAny
  | .drainReports gotAny => state.drainReportsStep gotAny
  | .loadDone =>
      { state with
        viewer := if state.engineDone then .testTrades .start else .drainTrades false }
  | .testTrades test =>
      { state with
        viewer :=
          match state.tradeQueue.system.queue.emptyStep headFirst test with
          | (test, none) => .testTrades test
          | (_, some true) => .testReports .start
          | (_, some false) => .drainTrades false }
  | .testReports test =>
      { state with
        viewer :=
          match state.reportQueue.system.queue.emptyStep headFirst test with
          | (test, none) => .testReports test
          | (_, some true) => .exited
          | (_, some false) => .drainTrades false }
  | .exited => state

def step (state : EngineViewer tradeCapacity reportCapacity) :
    EngineViewerEvent → EngineViewer tradeCapacity reportCapacity
  | .engine => state.engineStep
  | .viewer headFirst => state.viewerStep headFirst

end EngineViewer

end Lob
