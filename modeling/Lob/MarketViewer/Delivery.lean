import Lob.MarketViewer
import Lob.MatchingEngine.Counters
import Lob.SPSCQueue.Fifo

/-!
# The viewer receives everything

What the queues carry is a prefix of the trades and reports of the run: what was pushed,
followed by what the engine is publishing and by the responses to the commands that it has
not taken yet. After `engine_done` the engine touches nothing any more. So what the viewer
finds out after it has seen `engine_done` stays true, and when both tests succeed it has
popped everything.
-/

namespace Lob

/-! ### What the engine publishes -/

/-- The trades of the current command that are not pushed yet. -/
@[simp] def PublisherPoint.trades : PublisherPoint → List Trade
  | .publishing trades _ => trades
  | _ => []

/-- The report of the current command. -/
@[simp] def PublisherPoint.reports : PublisherPoint → List ExecutionReport
  | .publishing _ report => [report]
  | _ => []

namespace EngineViewer

variable {tradeCapacity reportCapacity : PowerOfTwo}
  {state next : EngineViewer tradeCapacity reportCapacity} {answers later : List Response}
variable {report : ExecutionReport}

/-- The engine is publishing `answers`, and `later` are those of the commands that it has
not taken yet. -/
structure Publishes (answers later : List Response)
    (state : EngineViewer tradeCapacity reportCapacity) : Prop where
  trades : state.tradeQueue.Sends (answers.flatMap Response.outTrades)
    (state.publisher.trades ++ later.flatMap Response.outTrades)
  reports : state.reportQueue.Sends (answers.map Response.report)
    (state.publisher.reports ++ later.map Response.report)
  coming : state.engine.responses state.toProcess = .ok later
  done : state.engineDone = true → state.publisher = .finished
  finished : state.publisher = .finished → later = []

theorem publishes_initial {engine : MatchingEngine} {commands : List Command}
    (run : engine.responses commands = .ok answers) (tradeCounter : UInt64)
    (tradeBuffer : Vector Trade tradeCapacity.value.toNat) (reportCounter : UInt64)
    (reportBuffer : Vector ExecutionReport reportCapacity.value.toNat) :
    (initial engine commands tradeCounter tradeBuffer reportCounter reportBuffer).Publishes
      answers answers where
  trades := SPSCRun.sends_initial tradeCounter tradeBuffer _
  reports := SPSCRun.sends_initial reportCounter reportBuffer _
  coming := run
  done := fun impossible => absurd impossible Bool.false_ne_true
  finished := fun impossible => PublisherPoint.noConfusion impossible

/-- The engine stores `engine_done`, or takes a command and has its response to publish. -/
theorem Publishes.takeStep (publishes : state.Publishes answers later)
    (point : state.publisher = .taking) : ∃ later, state.takeStep.Publishes answers later := by
  obtain ⟨trades, reports, coming, done, _⟩ := publishes
  rw [point] at trades reports
  unfold EngineViewer.takeStep
  split
  · rename_i all
    rw [all] at coming
    obtain rfl := Except.ok.inj coming
    exact ⟨[], trades, reports, by rw [all]; rfl, fun _ => rfl, fun _ => rfl⟩
  · rename_i command rest left
    rw [left] at coming
    obtain ⟨answer, later, rfl, applied, coming⟩ := MatchingEngine.responses_cons coming
    rw [applied]
    refine ⟨later, trades, reports, coming, fun isDone => ?_, PublisherPoint.noConfusion⟩
    exact PublisherPoint.noConfusion (point.symm.trans (done isDone))

/-- An engine in the middle of a command moves on without storing `engine_done`. -/
theorem Publishes.moveTo (publishes : state.Publishes answers later) {trades : List Trade}
    (point : state.publisher = .publishing trades report) (same : next.engine = state.engine)
    (left : next.toProcess = state.toProcess) (flag : next.engineDone = state.engineDone)
    (unfinished : next.publisher ≠ .finished)
    (tradesSent : next.tradeQueue.Sends (answers.flatMap Response.outTrades)
      (next.publisher.trades ++ later.flatMap Response.outTrades))
    (reportsSent : next.reportQueue.Sends (answers.map Response.report)
      (next.publisher.reports ++ later.map Response.report)) :
    next.Publishes answers later where
  trades := tradesSent
  reports := reportsSent
  coming := by rw [same, left, publishes.coming]
  done := by
    intro isDone
    rw [flag] at isDone
    exact PublisherPoint.noConfusion (point.symm.trans (publishes.done isDone))
  finished := fun isFinished => absurd isFinished unfinished

theorem Publishes.pushTrade (publishes : state.Publishes answers later) {trade : Trade}
    {trades : List Trade} (point : state.publisher = .publishing (trade :: trades) report) :
    Publishes answers later { state with
      tradeQueue := state.tradeQueue.step (.producer trade)
      publisher :=
        if state.tradeQueue.completesPush trade then .publishing trades report
        else .publishing (trade :: trades) report } := by
  have sends := publishes.trades
  have reports := publishes.reports
  rw [point] at sends reports
  have pushed := sends.push
  split at pushed
  · rename_i completes
    rw [if_pos completes]
    exact publishes.moveTo point rfl rfl rfl PublisherPoint.noConfusion pushed reports
  · rename_i retries
    rw [if_neg retries]
    exact publishes.moveTo point rfl rfl rfl PublisherPoint.noConfusion pushed reports

theorem Publishes.pushReport (publishes : state.Publishes answers later)
    (point : state.publisher = .publishing [] report) :
    Publishes answers later { state with
      reportQueue := state.reportQueue.step (.producer report)
      publisher :=
        if state.reportQueue.completesPush report then .taking else .publishing [] report } := by
  have trades := publishes.trades
  have sends := publishes.reports
  rw [point] at trades sends
  have pushed := sends.push
  split at pushed
  · rename_i completes
    rw [if_pos completes]
    exact publishes.moveTo point rfl rfl rfl PublisherPoint.noConfusion trades pushed
  · rename_i retries
    rw [if_neg retries]
    exact publishes.moveTo point rfl rfl rfl PublisherPoint.noConfusion trades pushed

theorem Publishes.engineStep (publishes : state.Publishes answers later) :
    ∃ later, state.engineStep.Publishes answers later := by
  unfold EngineViewer.engineStep
  split
  · rename_i point
    exact publishes.takeStep point
  · rename_i point
    exact ⟨later, publishes.pushTrade point⟩
  · rename_i point
    exact ⟨later, publishes.pushReport point⟩
  · exact ⟨later, publishes⟩
  · exact ⟨later, publishes⟩

end EngineViewer

/-! ### What the viewer knows -/

/-- What the test has loaded is current. -/
def EmptyTest.Agrees {T : Type} {capacity : PowerOfTwo} (queue : SPSCQueue T capacity) :
    EmptyTest → Prop
  | .start => True
  | .loadedHead head => head = queue.head
  | .loadedTail tail => tail = queue.tail

/-- One step of a test whose counters do not move. -/
theorem EmptyTest.Agrees.step {T : Type} {capacity : PowerOfTwo} {queue : SPSCQueue T capacity}
    {test : EmptyTest} (agrees : test.Agrees queue) (headFirst : Bool) :
    (∃ test', queue.emptyStep headFirst test = (test', none) ∧ test'.Agrees queue) ∨
      ∃ test' answer, queue.emptyStep headFirst test = (test', some answer) ∧
        (answer = true → queue.tail = queue.head) := by
  cases test with
  | start =>
      cases headFirst with
      | true => exact Or.inl ⟨_, rfl, rfl⟩
      | false => exact Or.inl ⟨_, rfl, rfl⟩
  | loadedHead head =>
      obtain rfl : head = queue.head := agrees
      exact Or.inr ⟨_, _, rfl, fun same => (of_decide_eq_true same).symm⟩
  | loadedTail tail =>
      obtain rfl : tail = queue.tail := agrees
      exact Or.inr ⟨_, _, rfl, fun same => (of_decide_eq_true same).symm⟩

namespace EngineViewer

variable {tradeCapacity reportCapacity : PowerOfTwo}
  {state next : EngineViewer tradeCapacity reportCapacity} {answers later : List Response}

/-- What the viewer has found out after it has seen `engine_done`. -/
def Knows (state : EngineViewer tradeCapacity reportCapacity) : ViewerPoint → Prop
  | .drainTrades _ => True
  | .drainReports _ => True
  | .loadDone => True
  | .testTrades test => state.engineDone = true ∧ test.Agrees state.tradeQueue.system.queue
  | .testReports test =>
      state.engineDone = true ∧ state.tradeQueue.unread = [] ∧
        test.Agrees state.reportQueue.system.queue
  | .exited =>
      state.engineDone = true ∧ state.tradeQueue.unread = [] ∧ state.reportQueue.unread = []

/-- The counters count what was popped, and what the viewer has found out is true. -/
structure Watches (state : EngineViewer tradeCapacity reportCapacity) : Prop where
  tradesSeen : state.tradesSeen = UInt64.ofNat state.tradeQueue.popped.length
  reportsSeen : state.reportsSeen = UInt64.ofNat state.reportQueue.popped.length
  rejectedSeen : state.rejectedSeen =
    UInt64.ofNat (state.reportQueue.popped.countP (fun report => !report.accepted))
  knows : state.Knows state.viewer

theorem watches_initial (engine : MatchingEngine) (commands : List Command)
    (tradeCounter : UInt64) (tradeBuffer : Vector Trade tradeCapacity.value.toNat)
    (reportCounter : UInt64)
    (reportBuffer : Vector ExecutionReport reportCapacity.value.toNat) :
    (initial engine commands tradeCounter tradeBuffer reportCounter reportBuffer).Watches :=
  ⟨rfl, rfl, rfl, trivial⟩

/-- Without `engine_done` the viewer has found out nothing. -/
theorem Watches.knows_of_undone (watches : state.Watches) (undone : state.engineDone ≠ true) :
    next.Knows state.viewer := by
  have knows := watches.knows
  cases point : state.viewer with
  | drainTrades _ => trivial
  | drainReports _ => trivial
  | loadDone => trivial
  | testTrades _ => exact absurd (point ▸ knows).1 undone
  | testReports _ => exact absurd (point ▸ knows).1 undone
  | exited => exact absurd (point ▸ knows).1 undone

/-- The engine does not touch what belongs to the viewer. -/
structure SameView (state next : EngineViewer tradeCapacity reportCapacity) : Prop where
  viewer : next.viewer = state.viewer
  tradesSeen : next.tradesSeen = state.tradesSeen
  reportsSeen : next.reportsSeen = state.reportsSeen
  rejectedSeen : next.rejectedSeen = state.rejectedSeen
  trades : next.tradeQueue.popped = state.tradeQueue.popped
  reports : next.reportQueue.popped = state.reportQueue.popped

theorem sameView_engineStep (state : EngineViewer tradeCapacity reportCapacity) :
    state.SameView state.engineStep := by
  unfold EngineViewer.engineStep
  split
  · unfold EngineViewer.takeStep
    split
    · exact ⟨rfl, rfl, rfl, rfl, rfl, rfl⟩
    · split
      · exact ⟨rfl, rfl, rfl, rfl, rfl, rfl⟩
      · exact ⟨rfl, rfl, rfl, rfl, rfl, rfl⟩
  · exact ⟨rfl, rfl, rfl, rfl, state.tradeQueue.popped_push _, rfl⟩
  · exact ⟨rfl, rfl, rfl, rfl, rfl, state.reportQueue.popped_push _⟩
  · exact ⟨rfl, rfl, rfl, rfl, rfl, rfl⟩
  · exact ⟨rfl, rfl, rfl, rfl, rfl, rfl⟩

theorem Watches.engineStep (watches : state.Watches) (publishes : state.Publishes answers later) :
    state.engineStep.Watches := by
  by_cases done : state.engineDone = true
  · -- the engine has finished, so it does nothing
    unfold EngineViewer.engineStep
    rw [publishes.done done]
    exact watches
  · have same := state.sameView_engineStep
    refine ⟨?_, ?_, ?_, ?_⟩
    · rw [same.tradesSeen, same.trades, watches.tradesSeen]
    · rw [same.reportsSeen, same.reports, watches.reportsSeen]
    · rw [same.rejectedSeen, same.reports, watches.rejectedSeen]
    · rw [same.viewer]
      exact watches.knows_of_undone done

theorem Watches.drainTradesStep (watches : state.Watches) {gotAny : Bool}
    (point : state.viewer = .drainTrades gotAny) (lossless : state.tradeQueue.Lossless) :
    (state.drainTradesStep gotAny).Watches := by
  obtain ⟨tradesSeen, reportsSeen, rejectedSeen, _⟩ := watches
  unfold EngineViewer.drainTradesStep
  rcases lossless.pop_cases with ⟨outcome, popped⟩ | ⟨outcome, popped, _⟩ | ⟨out, outcome, popped⟩
  · rw [outcome]
    refine ⟨by rw [popped]; exact tradesSeen, reportsSeen, rejectedSeen, ?_⟩
    rw [point]
    trivial
  · rw [outcome]
    exact ⟨by rw [popped]; exact tradesSeen, reportsSeen, rejectedSeen, trivial⟩
  · rw [outcome]
    refine ⟨?_, reportsSeen, rejectedSeen, trivial⟩
    rw [popped, List.length_append, List.length_singleton, UInt64.ofNat_add, ← tradesSeen]
    rfl

theorem Watches.drainReportsStep (watches : state.Watches) {gotAny : Bool}
    (point : state.viewer = .drainReports gotAny) (lossless : state.reportQueue.Lossless) :
    (state.drainReportsStep gotAny).Watches := by
  obtain ⟨tradesSeen, reportsSeen, rejectedSeen, _⟩ := watches
  unfold EngineViewer.drainReportsStep
  rcases lossless.pop_cases with ⟨outcome, popped⟩ | ⟨outcome, popped, _⟩ | ⟨out, outcome, popped⟩
  · rw [outcome]
    refine ⟨tradesSeen, by rw [popped]; exact reportsSeen, by rw [popped]; exact rejectedSeen, ?_⟩
    rw [point]
    trivial
  · rw [outcome]
    refine ⟨tradesSeen, by rw [popped]; exact reportsSeen, by rw [popped]; exact rejectedSeen, ?_⟩
    cases gotAny with
    | true => trivial
    | false => trivial
  · rw [outcome]
    refine ⟨tradesSeen, ?_, ?_, trivial⟩
    · rw [popped, List.length_append, List.length_singleton, UInt64.ofNat_add, ← reportsSeen]
      rfl
    · change (if out.accepted then state.rejectedSeen else state.rejectedSeen + 1) = _
      rw [popped, List.countP_append, List.countP_singleton, UInt64.ofNat_add, ← rejectedSeen]
      cases out.accepted with
      | true => exact (UInt64.add_zero _).symm
      | false => rfl

/-- An emptiness test that succeeds after `engine_done` was seen. -/
theorem unread_of_tail_eq_head {T : Type} {capacity : PowerOfTwo} {run : SPSCRun T capacity}
    (lossless : run.Lossless) (same : run.system.queue.tail = run.system.queue.head) :
    run.unread = [] := by
  rw [lossless.unread_eq, ← List.length_eq_zero_iff, SPSCQueue.length_stored,
    SPSCQueue.size_eq_zero_iff]
  exact same

theorem Watches.viewerStep (watches : state.Watches) (publishes : state.Publishes answers later)
    (headFirst : Bool) : (state.viewerStep headFirst).Watches := by
  have knows := watches.knows
  unfold EngineViewer.viewerStep
  split
  · rename_i gotAny point
    exact watches.drainTradesStep point publishes.trades.lossless
  · rename_i gotAny point
    exact watches.drainReportsStep point publishes.reports.lossless
  · refine { watches with knows := ?_ }
    by_cases done : state.engineDone = true
    · rw [if_pos done]
      exact ⟨done, trivial⟩
    · rw [if_neg done]
      trivial
  · rename_i test point
    refine { watches with knows := ?_ }
    rw [point] at knows
    obtain ⟨done, agrees⟩ := knows
    rcases agrees.step headFirst with ⟨test', moved, agrees'⟩ | ⟨test', answer, moved, empty⟩
    · rw [moved]
      exact ⟨done, agrees'⟩
    · rw [moved]
      cases answer with
      | true => exact ⟨done, unread_of_tail_eq_head publishes.trades.lossless (empty rfl), trivial⟩
      | false => trivial
  · rename_i test point
    refine { watches with knows := ?_ }
    rw [point] at knows
    obtain ⟨done, trades, agrees⟩ := knows
    rcases agrees.step headFirst with ⟨test', moved, agrees'⟩ | ⟨test', answer, moved, empty⟩
    · rw [moved]
      exact ⟨done, trades, agrees'⟩
    · rw [moved]
      cases answer with
      | true =>
          exact ⟨done, trades, unread_of_tail_eq_head publishes.reports.lossless (empty rfl)⟩
      | false => trivial
  · exact watches

/-- The viewer only pops. -/
theorem Publishes.viewerStep (publishes : state.Publishes answers later) (headFirst : Bool) :
    (state.viewerStep headFirst).Publishes answers later := by
  unfold EngineViewer.viewerStep
  split
  · unfold EngineViewer.drainTradesStep
    split
    · exact { publishes with trades := publishes.trades.pop }
    · exact { publishes with trades := publishes.trades.pop }
    · exact { publishes with trades := publishes.trades.pop }
  · unfold EngineViewer.drainReportsStep
    split
    · exact { publishes with reports := publishes.reports.pop }
    · exact { publishes with reports := publishes.reports.pop }
    · exact { publishes with reports := publishes.reports.pop }
  · exact { publishes with }
  · exact { publishes with }
  · exact { publishes with }
  · exact publishes

/-! ### Whole runs -/

/-- The invariant of the two processes. -/
def Relays (answers : List Response) (state : EngineViewer tradeCapacity reportCapacity) : Prop :=
  (∃ later, state.Publishes answers later) ∧ state.Watches

theorem Relays.step (relays : state.Relays answers) (event : EngineViewerEvent) :
    (state.step event).Relays answers := by
  obtain ⟨⟨later, publishes⟩, watches⟩ := relays
  cases event with
  | engine => exact ⟨publishes.engineStep, watches.engineStep publishes⟩
  | viewer headFirst =>
      exact ⟨⟨later, publishes.viewerStep headFirst⟩, watches.viewerStep publishes headFirst⟩

/-- What the processes have done after any interleaving of their steps. The engine may have
recovered any commands before. -/
theorem exists_relays (limits : RiskLimits) (recovered : List Command) {engine : MatchingEngine}
    (reached : (MatchingEngine.fresh limits).runAll recovered = .ok engine)
    (commands : List Command) (tradeCounter : UInt64)
    (tradeBuffer : Vector Trade tradeCapacity.value.toNat) (reportCounter : UInt64)
    (reportBuffer : Vector ExecutionReport reportCapacity.value.toNat)
    (events : List EngineViewerEvent) :
    engine.Consistent ∧ ∃ answers, engine.responses commands = .ok answers ∧
      (Schedule.run step
        (initial engine commands tradeCounter tradeBuffer reportCounter reportBuffer)
        events).Relays answers := by
  obtain ⟨final, reached', consistent⟩ := (consistent_fresh limits).runAll recovered
  obtain rfl := Except.ok.inj (reached.symm.trans reached')
  obtain ⟨answers, run, _⟩ := consistent.responses commands
  refine ⟨consistent, answers, run, Schedule.run_invariant (fun _ event known => known.step event)
    ⟨⟨answers, ?_⟩, ?_⟩ events⟩
  · exact publishes_initial run tradeCounter tradeBuffer reportCounter reportBuffer
  · exact watches_initial engine commands tradeCounter tradeBuffer reportCounter reportBuffer

/-- A viewer that has left its loop has popped every trade and every report that the engine
has pushed for its commands, once and in order. The reports account for the trades, and they
are numbered without a gap. -/
theorem viewer_receives_everything (limits : RiskLimits) (recovered : List Command)
    {engine : MatchingEngine}
    (reached : (MatchingEngine.fresh limits).runAll recovered = .ok engine)
    (commands : List Command) (tradeCounter : UInt64)
    (tradeBuffer : Vector Trade tradeCapacity.value.toNat) (reportCounter : UInt64)
    (reportBuffer : Vector ExecutionReport reportCapacity.value.toNat)
    (events : List EngineViewerEvent) :
    let state := Schedule.run step
      (initial engine commands tradeCounter tradeBuffer reportCounter reportBuffer) events
    let tradeCounts := state.reportQueue.popped.map (fun report => report.tradeCount.toNat)
    state.viewer = .exited →
      ∃ answers, engine.responses commands = .ok answers ∧
        state.tradeQueue.pushed = answers.flatMap Response.outTrades ∧
        state.tradeQueue.popped = state.tradeQueue.pushed ∧
        state.reportQueue.pushed = answers.map Response.report ∧
        state.reportQueue.popped = state.reportQueue.pushed ∧
        state.tradeQueue.popped.length = tradeCounts.sum ∧
        state.tradesSeen = UInt64.ofNat tradeCounts.sum ∧
        state.reportQueue.popped.map ExecutionReport.sequence =
          (List.range commands.length).map
            (fun i => engine.sequence + 1 + UInt64.ofNat i) := by
  intro state tradeCounts exited
  obtain ⟨consistent, answers, run, ⟨later, publishes⟩, watches⟩ := exists_relays limits recovered
    reached commands tradeCounter tradeBuffer reportCounter reportBuffer events
  have knows := watches.knows
  rw [exited] at knows
  obtain ⟨done, tradesDrained, reportsDrained⟩ := knows
  have finished := publishes.done done
  obtain rfl := publishes.finished finished
  have trades := publishes.trades
  have reports := publishes.reports
  rw [finished] at trades reports
  obtain ⟨tradesPopped, tradesPushed⟩ := trades.popped_eq tradesDrained
  obtain ⟨reportsPopped, reportsPushed⟩ := reports.popped_eq reportsDrained
  have total : state.tradeQueue.popped.length = tradeCounts.sum := by
    have counted := consistent.tradeCounts run
    rwa [← tradesPushed, ← reportsPushed, ← tradesPopped, ← reportsPopped] at counted
  refine ⟨answers, run, tradesPushed, tradesPopped, reportsPushed, reportsPopped, total, ?_, ?_⟩
  · rw [← total]
    exact watches.tradesSeen
  · rw [reportsPopped, reportsPushed, List.map_map]
    exact MatchingEngine.responses_numbered run

/-- A resting order and one that trades with it: two reports and one trade. The engine is
done before the viewer's first pop. -/
theorem viewer_receives_one_trade :
    let commands : List Command :=
      [.newOrder { id := 1, side := .sell, price := 100, quantity := 10 },
        .newOrder { id := 2, side := .buy, price := 100, quantity := 4 }]
    let start : EngineViewer kTradeQueueCapacity kReportQueueCapacity :=
      initial (.fresh {}) commands 0 (Vector.replicate _ {}) 0 (Vector.replicate _ {})
    let events : List EngineViewerEvent :=
      List.replicate 15 .engine ++ List.replicate 25 (.viewer true)
    let final := Schedule.run step start events
    final.viewer = .exited ∧ final.tradeQueue.popped.length = 1 ∧ final.tradesSeen = 1 ∧
      final.reportQueue.popped.map ExecutionReport.sequence = [1, 2] := by
  intro commands start events final
  have exited : final.viewer = .exited := by decide +kernel
  have counts : final.reportQueue.popped.map (fun report => report.tradeCount.toNat) = [0, 1] := by
    decide +kernel
  obtain ⟨_, _, _, _, _, _, length, seen, numbered⟩ :=
    viewer_receives_everything {} [] rfl commands 0 _ 0 _ events exited
  rw [counts] at length seen
  exact ⟨exited, length, seen, numbered⟩

end EngineViewer

end Lob
