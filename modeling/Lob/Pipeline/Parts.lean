import Lob.Pipeline

/-!
# The parts of the pipeline

What each part does on its own: the order queue between the feed and the engine, the two
outgoing queues, the counters of the header, and the stages of the engine process in between.
-/

namespace Lob

/-! ### The order queue -/

namespace FeedEngine

variable {capacity : PowerOfTwo} {state : FeedEngine capacity} {commands : List Command}

/-- The queue carries `commands`, and the engine has processed what it has popped, but for
the command in its hands. -/
structure Carries (commands : List Command) (state : FeedEngine capacity) : Prop where
  sends : state.orders.Sends commands state.toSend
  processed : state.orders.popped = state.processed ++ state.engine.inFlight

theorem carries_initial (counter : UInt64) (buffer : Vector Command capacity.value.toNat)
    (commands : List Command) : (initial counter buffer commands).Carries commands where
  sends := SPSCRun.sends_initial counter buffer commands
  processed := rfl

theorem Carries.taken_prefix (carries : state.Carries commands) :
    state.processed ++ state.engine.inFlight <+: commands := by
  rw [← carries.processed]
  exact carries.sends.prefix_popped

theorem Carries.feedStep (carries : state.Carries commands) :
    state.feedStep.Carries commands ∧ state.feedStep.processed = state.processed ∧
      state.feedStep.engine = state.engine := by
  unfold FeedEngine.feedStep
  split
  · exact ⟨⟨carries.sends, carries.processed⟩, rfl, rfl⟩
  · rename_i command rest left
    have sends := carries.sends
    rw [left] at sends
    rw [toSend_eq]
    exact ⟨⟨sends.push, (state.orders.popped_push command).trans carries.processed⟩, rfl, rfl⟩

/-- An engine without a command in its hands may pop one. -/
theorem Carries.loop (carries : state.Carries commands) (free : state.engine.inFlight = [])
    (idleExitMs idleFor : Int) :
    (state.engineStep idleExitMs idleFor).Carries commands ∧
      (state.engineStep idleExitMs idleFor).processed = state.processed := by
  have processed := carries.processed
  unfold FeedEngine.engineStep
  split
  · have sends := carries.sends.pop
    rw [free, List.append_nil] at processed
    rcases carries.sends.lossless.pop_cases with
      ⟨outcome, popped⟩ | ⟨outcome, popped, _⟩ | ⟨out, outcome, popped⟩
    · rw [outcome]
      exact ⟨⟨sends, by rw [popped, processed]; exact (List.append_nil _).symm⟩, rfl⟩
    · rw [outcome]
      refine ⟨⟨sends, ?_⟩, rfl⟩
      rw [popped, processed]
      dsimp only
      split <;> exact (List.append_nil _).symm
    · rw [outcome]
      exact ⟨⟨sends, by rw [popped, processed]; rfl⟩, rfl⟩
  · refine ⟨⟨carries.sends, ?_⟩, rfl⟩
    rw [processed, free]
    dsimp only
    split <;> rfl
  · refine ⟨⟨carries.sends, ?_⟩, rfl⟩
    rw [processed, free]
    dsimp only
    split <;> rfl
  · rename_i command point
    rw [point] at free
    exact absurd free (List.cons_ne_nil _ _)
  · exact ⟨carries, rfl⟩

/-- The engine is through with the command in its hands. -/
theorem Carries.handled (carries : state.Carries commands) {command : Command}
    (point : state.engine = .processing command) (idleExitMs idleFor : Int) :
    (state.engineStep idleExitMs idleFor).Carries commands ∧
      (state.engineStep idleExitMs idleFor).processed = state.processed ++ [command] ∧
      (state.engineStep idleExitMs idleFor).engine = .popping := by
  have processed := carries.processed
  rw [point] at processed
  simp only [FeedEngine.engineStep, point]
  exact ⟨⟨carries.sends, processed.trans (List.append_nil _).symm⟩, trivial, trivial⟩

end FeedEngine

/-! ### The outgoing queues -/

namespace EngineViewer

variable {tradeCapacity reportCapacity : PowerOfTwo}
  {state next : EngineViewer tradeCapacity reportCapacity} {answers : List Response}

/-- The viewer leaves alone what belongs to the engine. -/
theorem viewerStep_keeps (state : EngineViewer tradeCapacity reportCapacity) (headFirst : Bool) :
    (state.viewerStep headFirst).engine = state.engine ∧
      (state.viewerStep headFirst).publisher = state.publisher ∧
      (state.viewerStep headFirst).engineDone = state.engineDone := by
  unfold EngineViewer.viewerStep
  split
  · unfold EngineViewer.drainTradesStep
    split <;> exact ⟨rfl, rfl, rfl⟩
  · unfold EngineViewer.drainReportsStep
    split <;> exact ⟨rfl, rfl, rfl⟩
  all_goals exact ⟨rfl, rfl, rfl⟩

/-- What the viewer knows outlasts what the engine does before `engine_done`. -/
theorem Watches.of_sameView (watches : state.Watches) (same : state.SameView next)
    (undone : state.engineDone ≠ true) : next.Watches where
  tradesSeen := by rw [same.tradesSeen, same.trades, watches.tradesSeen]
  reportsSeen := by rw [same.reportsSeen, same.reports, watches.reportsSeen]
  rejectedSeen := by rw [same.rejectedSeen, same.reports, watches.rejectedSeen]
  knows := by
    rw [same.viewer]
    exact watches.knows_of_undone undone

/-- An engine that is not finished has not stored `engine_done`. -/
theorem Publishes.undone {later : List Response} (publishes : state.Publishes answers later)
    (unfinished : state.publisher ≠ .finished) : state.engineDone ≠ true :=
  fun done => unfinished (publishes.done done)

theorem Publishes.toProcess_eq_nil (publishes : state.Publishes answers []) :
    state.toProcess = [] := by
  have coming := publishes.coming
  cases left : state.toProcess with
  | nil => rfl
  | cons command rest =>
      rw [left] at coming
      obtain ⟨_, _, impossible, _⟩ := MatchingEngine.responses_cons coming
      contradiction

/-- One more response to publish. -/
theorem Publishes.answer (publishes : state.Publishes answers [])
    (taking : state.publisher = .taking) (response : Response) :
    Publishes (answers ++ [response]) [] { state with
      engine := response.engine
      publisher := .publishing response.outTrades response.report } := by
  have all := publishes.toProcess_eq_nil
  obtain ⟨trades, reports, _, done, _⟩ := publishes
  rw [taking] at trades reports
  refine ⟨?_, ?_, by rw [all]; rfl, fun isDone => ?_, fun impossible => by contradiction⟩
  · have more := trades.extend response.outTrades
    rw [List.flatMap_append, List.flatMap_singleton]
    simpa using more
  · have more := reports.extend [response.report]
    rw [List.map_append, List.map_singleton]
    simpa using more
  · exact absurd (taking.symm.trans (done isDone)) PublisherPoint.noConfusion

/-- One step of a push. The report goes last. -/
theorem Publishes.push (publishes : state.Publishes answers []) {trades : List Trade}
    {report : ExecutionReport} (point : state.publisher = .publishing trades report) :
    state.engineStep.Publishes answers [] ∧ state.engineStep.engine = state.engine ∧
      (state.engineStep.publisher = .taking ∨
        ∃ trades, state.engineStep.publisher = .publishing trades report) := by
  unfold EngineViewer.engineStep
  rw [point]
  cases trades with
  | nil =>
      refine ⟨publishes.pushReport point, rfl, ?_⟩
      dsimp only
      split
      · exact Or.inl rfl
      · exact Or.inr ⟨_, rfl⟩
  | cons trade trades =>
      refine ⟨publishes.pushTrade point, rfl, Or.inr ?_⟩
      dsimp only
      split
      · exact ⟨_, rfl⟩
      · exact ⟨_, rfl⟩

/-- The engine stores `engine_done`. -/
theorem Publishes.finish (publishes : state.Publishes answers [])
    (taking : state.publisher = .taking) :
    Publishes answers [] { state with engineDone := true, publisher := .finished } := by
  obtain ⟨trades, reports, coming, _, _⟩ := publishes
  rw [taking] at trades reports
  exact ⟨trades, reports, coming, fun _ => rfl, fun _ => rfl⟩

end EngineViewer

/-! ### The counters of the header -/

namespace SharedHeader

/-- The header after these responses were counted. -/
def countAll (header : SharedHeader) (answers : List Response) : SharedHeader :=
  answers.foldl SharedHeader.count header

theorem countAll_concat (header : SharedHeader) (answers : List Response) (response : Response) :
    header.countAll (answers ++ [response]) = (header.countAll answers).count response := by
  rw [countAll, List.foldl_append]
  rfl

theorem countAll_processed (header : SharedHeader) (answers : List Response) :
    (header.countAll answers).processedCommands =
      header.processedCommands + UInt64.ofNat answers.length := by
  induction answers using List.reverseRecOn with
  | nil => exact (UInt64.add_zero _).symm
  | append_singleton answers response ih =>
      rw [countAll_concat, SharedHeader.count, ih, List.length_append, List.length_singleton,
        UInt64.ofNat_add, UInt64.add_assoc]
      rfl

theorem countAll_rejected (header : SharedHeader) (answers : List Response) :
    (header.countAll answers).rejectedCommands = header.rejectedCommands +
      UInt64.ofNat ((answers.map Response.report).countP (fun report => !report.accepted)) := by
  induction answers using List.reverseRecOn with
  | nil => exact (UInt64.add_zero _).symm
  | append_singleton answers response ih =>
      rw [countAll_concat, SharedHeader.count, ih, List.map_append, List.countP_append,
        List.map_singleton, List.countP_singleton, UInt64.ofNat_add, ← UInt64.add_assoc]
      cases response.report.accepted with
      | true => exact (UInt64.add_zero _).symm
      | false => rfl

theorem countAll_outcomes (header : SharedHeader) (answers : List Response) :
    (header.countAll answers).acceptedCommands + (header.countAll answers).rejectedCommands =
      header.acceptedCommands + header.rejectedCommands + UInt64.ofNat answers.length := by
  induction answers using List.reverseRecOn with
  | nil => exact (UInt64.add_zero _).symm
  | append_singleton answers response ih =>
      rw [countAll_concat, List.length_append, List.length_singleton, UInt64.ofNat_add,
        ← UInt64.add_assoc, ← ih]
      simp only [SharedHeader.count]
      cases response.report.accepted with
      | true =>
          simp only [if_true]
          grind
      | false => exact (UInt64.add_assoc _ _ _).symm

theorem countAll_trades (header : SharedHeader) (answers : List Response) :
    (header.countAll answers).tradesGenerated = header.tradesGenerated +
      UInt64.ofNat (answers.flatMap Response.outTrades).length := by
  induction answers using List.reverseRecOn with
  | nil => exact (UInt64.add_zero _).symm
  | append_singleton answers response ih =>
      rw [countAll_concat, SharedHeader.count, ih, List.flatMap_append, List.length_append,
        List.flatMap_singleton, UInt64.ofNat_add, UInt64.add_assoc]

end SharedHeader

/-! ### The engine process in between -/

namespace MainStage

variable {before engine : MatchingEngine} {publisher : PublisherPoint} {stage : MainStage}
  {point : EnginePoint}

/-- The response that is being published or counted. -/
@[simp] def response? : MainStage → Option Response
  | .publishing response => some response
  | .counting response _ => some response
  | _ => none

/-- The header, given what it was before the command in hand. -/
@[simp] def counted (header : SharedHeader) : MainStage → SharedHeader
  | .counting response store => header.upTo response store
  | _ => header

/-- What the engine process has in its hands at this stage: `point` in its loop, `engine`
and `publisher`, where the engine was `before` when the loop came round. -/
def Agrees (point : EnginePoint) (publisher : PublisherPoint) (before engine : MatchingEngine) :
    MainStage → Prop
  | .looping => point.inFlight = [] ∧ publisher = .taking ∧ engine = before
  | .writing command _ => point = .processing command ∧ publisher = .taking ∧ engine = before
  | .syncing command => point = .processing command ∧ publisher = .taking ∧ engine = before
  | .applying command => point = .processing command ∧ publisher = .taking ∧ engine = before
  | .publishing response =>
      (∃ command, point = .processing command ∧ before.apply command [] = .ok response) ∧
        (∃ trades, publisher = .publishing trades response.report) ∧ engine = response.engine
  | .counting response _ =>
      (∃ command, point = .processing command ∧ before.apply command [] = .ok response) ∧
        publisher = .taking ∧ engine = response.engine
  | .leaving => publisher = .taking ∧ engine = before
  | .storingDone => publisher = .taking ∧ engine = before
  | .exited => publisher = .finished ∧ engine = before
  | .faulted => False

/-- The process goes on with what its loop has come to. -/
theorem agrees_mainStage (point : EnginePoint) (journaling : Bool) (taking : publisher = .taking)
    (same : engine = before) :
    (point.mainStage journaling).response? = none ∧
      (∀ header, (point.mainStage journaling).counted header = header) ∧
      (point.mainStage journaling).Agrees point publisher before engine := by
  cases point with
  | processing command =>
      cases journaling with
      | true => exact ⟨rfl, fun _ => rfl, rfl, taking, same⟩
      | false => exact ⟨rfl, fun _ => rfl, rfl, taking, same⟩
  | exited => exact ⟨rfl, fun _ => rfl, taking, same⟩
  | popping => exact ⟨rfl, fun _ => rfl, rfl, taking, same⟩
  | sawEmpty => exact ⟨rfl, fun _ => rfl, rfl, taking, same⟩
  | sawDone => exact ⟨rfl, fun _ => rfl, rfl, taking, same⟩

/-- Only a process that has exited is finished. -/
theorem Agrees.eq_exited (agrees : stage.Agrees point .finished before engine) :
    stage = .exited := by
  cases stage with
  | looping => exact absurd agrees.2.1 PublisherPoint.noConfusion
  | writing _ _ => exact absurd agrees.2.1 PublisherPoint.noConfusion
  | syncing _ => exact absurd agrees.2.1 PublisherPoint.noConfusion
  | applying _ => exact absurd agrees.2.1 PublisherPoint.noConfusion
  | publishing _ =>
      obtain ⟨_, ⟨_, impossible⟩, _⟩ := agrees
      contradiction
  | counting _ _ => exact absurd agrees.2.1 PublisherPoint.noConfusion
  | leaving => exact absurd agrees.1 PublisherPoint.noConfusion
  | storingDone => exact absurd agrees.1 PublisherPoint.noConfusion
  | exited => rfl
  | faulted => exact agrees.elim

/-- A response in hand is that to the command that was popped. -/
theorem Agrees.response (agrees : stage.Agrees point publisher before engine) {response : Response}
    (inHand : stage.response? = some response) :
    ∃ command, point = .processing command ∧ before.apply command [] = .ok response := by
  cases stage with
  | publishing _ =>
      obtain rfl := Option.some.inj inHand
      exact agrees.1
  | counting _ _ =>
      obtain rfl := Option.some.inj inHand
      exact agrees.1
  | _ => contradiction

theorem Agrees.engine_of_some (agrees : stage.Agrees point publisher before engine)
    {response : Response} (inHand : stage.response? = some response) :
    engine = response.engine := by
  cases stage with
  | publishing _ =>
      obtain rfl := Option.some.inj inHand
      exact agrees.2.2
  | counting _ _ =>
      obtain rfl := Option.some.inj inHand
      exact agrees.2.2
  | _ => contradiction

theorem Agrees.engine_of_none (agrees : stage.Agrees point publisher before engine)
    (free : stage.response? = none) :
    engine = before := by
  cases stage with
  | looping => exact agrees.2.2
  | writing _ _ => exact agrees.2.2
  | syncing _ => exact agrees.2.2
  | applying _ => exact agrees.2.2
  | publishing _ => contradiction
  | counting _ _ => contradiction
  | leaving => exact agrees.2
  | storingDone => exact agrees.2
  | exited => exact agrees.2
  | faulted => exact agrees.elim

end MainStage

end Lob
