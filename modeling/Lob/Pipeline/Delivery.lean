import Lob.Pipeline.Parts

/-!
# From the feed to the viewer

At each step the engine process has handled some first commands of the feed, and may have a
response in its hands. The two outgoing queues carry the responses to the handled commands
and what is pushed of the one in hand; the header counts the handled ones and as many of the
stores as were made for the one in hand. `Flows` says so, and every step of every process
keeps it, whether the engine is killed, its journal fails or a signal stops it.
-/

namespace Lob

open Journal

namespace Pipeline

variable {orderCapacity tradeCapacity reportCapacity : PowerOfTwo}
  {state : Pipeline orderCapacity tradeCapacity reportCapacity}
  {main : EngineMain} {commands : List Command} {answers : List Response}
variable {command : Command}

/-- The process that came up as `main` has handled some of the feed's commands, with these
answers. -/
structure Flows (main : EngineMain) (commands : List Command) (answers : List Response)
    (state : Pipeline orderCapacity tradeCapacity reportCapacity) : Prop where
  carries : state.input.Carries commands
  handled : main.engine.responses state.input.processed = .ok answers
  consistent : (main.engine.lastEngine answers).Consistent
  agrees : state.stage.Agrees state.input.engine state.output.publisher
    (main.engine.lastEngine answers) state.output.engine
  output : state.output.Publishes (answers ++ state.stage.response?.toList) []
  watches : state.output.Watches
  header : state.header = state.stage.counted (main.header.countAll answers)

theorem flows_initial (consistent : main.engine.Consistent) (commands : List Command)
    (region : Region orderCapacity tradeCapacity reportCapacity) :
    (initial main commands region).Flows main commands [] where
  carries := FeedEngine.carries_initial _ _ commands
  handled := rfl
  consistent := consistent
  agrees := ⟨rfl, rfl, rfl⟩
  output := EngineViewer.publishes_initial rfl _ _ _ _
  watches := EngineViewer.watches_initial _ _ _ _ _ _
  header := rfl

theorem Flows.feed (flows : state.Flows main commands answers) :
    Flows main commands answers { state with input := state.input.feedStep } := by
  obtain ⟨carries, processed, point⟩ := flows.carries.feedStep
  exact { flows with
    carries
    handled := by rw [processed]; exact flows.handled
    agrees := by rw [point]; exact flows.agrees }

theorem Flows.viewer (flows : state.Flows main commands answers) (headFirst : Bool) :
    Flows main commands answers { state with output := state.output.viewerStep headFirst } := by
  obtain ⟨engine, publisher, _⟩ := state.output.viewerStep_keeps headFirst
  exact { flows with
    agrees := by rw [engine, publisher]; exact flows.agrees
    output := flows.output.viewerStep headFirst
    watches := flows.watches.viewerStep flows.output headFirst }

/-- The engine process moves to another stage with the same in its hands, and touches
neither an outgoing queue nor the header. -/
theorem Flows.moveTo (flows : state.Flows main commands answers) (stage : MainStage)
    {input : FeedEngine orderCapacity} (carries : input.Carries commands)
    (processed : input.processed = state.input.processed)
    (response : stage.response? = state.stage.response?)
    (counted : ∀ header, stage.counted header = state.stage.counted header)
    (agrees : stage.Agrees input.engine state.output.publisher
      (main.engine.lastEngine answers) state.output.engine)
    {journal : EventJournal} {file : List UInt8} {synced : Nat} {journalFailed : Bool} :
    Flows main commands answers { state with input, stage, journal, file, synced, journalFailed } :=
  { flows with
    carries
    handled := by rw [processed]; exact flows.handled
    agrees
    output := by rw [response]; exact flows.output
    header := by rw [counted]; exact flows.header }

theorem Flows.loop (flows : state.Flows main commands answers) (stage : state.stage = .looping)
    (args : LoopArgs) (choice : EngineChoice) :
    (state.loopStep args choice).Flows main commands answers := by
  have agrees := flows.agrees
  rw [stage] at agrees
  obtain ⟨free, taking, same⟩ := agrees
  unfold Pipeline.loopStep
  split
  · exact flows.moveTo .leaving flows.carries rfl (by rw [stage]; rfl) (by simp [stage])
      ⟨taking, same⟩
  · obtain ⟨carries, processed⟩ := flows.carries.loop free args.idleExitMs choice.idleFor
    obtain ⟨response, counted, agrees⟩ := MainStage.agrees_mainStage
      (state.input.engineStep args.idleExitMs choice.idleFor).engine state.journal.isOpen taking
      same
    exact flows.moveTo _ carries processed (by rw [response, stage]; rfl)
      (fun header => by rw [counted, stage]; rfl) agrees

theorem Flows.write (flows : state.Flows main commands answers) {written : Nat}
    (stage : state.stage = .writing command written) (outcome : WriteOutcome) :
    (state.writeStep command written outcome).Flows main commands answers := by
  have agrees := flows.agrees
  rw [stage] at agrees
  obtain ⟨point, taking, same⟩ := agrees
  have fails : ∀ message, (state.failAppend message).Flows main commands answers := fun message =>
    flows.moveTo .leaving flows.carries rfl (by rw [stage]; rfl) (by simp [stage]) ⟨taking, same⟩
  cases outcome with
  | interrupted => exact flows
  | failed strerror => exact fails _
  | wrote count =>
      simp only [Pipeline.writeStep]
      split
      · exact fails _
      split
      · exact flows.moveTo (.writing command _) flows.carries rfl (by rw [stage]; rfl)
          (by simp [stage]) ⟨point, taking, same⟩
      split
      · exact flows.moveTo (.syncing command) flows.carries rfl (by rw [stage]; rfl)
          (by simp [stage]) ⟨point, taking, same⟩
      · exact flows.moveTo (.applying command) flows.carries rfl (by rw [stage]; rfl)
          (by simp [stage]) ⟨point, taking, same⟩

theorem Flows.sync (flows : state.Flows main commands answers)
    (stage : state.stage = .syncing command) (syncFailure : Option String) :
    (state.syncStep command syncFailure).Flows main commands answers := by
  have agrees := flows.agrees
  rw [stage] at agrees
  obtain ⟨point, taking, same⟩ := agrees
  cases syncFailure with
  | some strerror =>
      exact flows.moveTo .leaving flows.carries rfl (by rw [stage]; rfl) (by simp [stage])
        ⟨taking, same⟩
  | none =>
      exact flows.moveTo (.applying command) flows.carries rfl (by rw [stage]; rfl)
        (by simp [stage]) ⟨point, taking, same⟩

/-- The engine never faults, and its response is the next one to publish. -/
theorem Flows.apply (flows : state.Flows main commands answers)
    (stage : state.stage = .applying command) :
    (state.applyStep command).Flows main commands answers := by
  obtain ⟨carries, handled, consistent, agrees, output, watches, header⟩ := flows
  rw [stage] at agrees output header
  obtain ⟨point, taking, same⟩ := agrees
  obtain ⟨response, applied, _⟩ := consistent.apply command []
  have undone : state.output.engineDone ≠ true :=
    output.undone (by rw [taking]; exact PublisherPoint.noConfusion)
  replace output : state.output.Publishes answers [] := by simpa using output
  unfold Pipeline.applyStep
  rw [same, applied]
  exact ⟨carries, handled, consistent, ⟨⟨command, point, applied⟩, ⟨_, rfl⟩, rfl⟩,
    output.answer taking response,
    watches.of_sameView ⟨rfl, rfl, rfl, rfl, rfl, rfl⟩ undone, header⟩

theorem Flows.publish (flows : state.Flows main commands answers) {response : Response}
    (stage : state.stage = .publishing response) :
    (state.publishStep response).Flows main commands answers := by
  obtain ⟨carries, handled, consistent, agrees, output, watches, header⟩ := flows
  rw [stage] at agrees output header
  obtain ⟨popped, ⟨trades, publishing⟩, engine⟩ := agrees
  obtain ⟨output', engine', point⟩ := output.push publishing
  have watches' := watches.engineStep output
  unfold Pipeline.publishStep
  dsimp only
  rcases point with taking | ⟨left, more⟩
  · rw [if_pos taking]
    exact ⟨carries, handled, consistent, ⟨popped, taking, engine'.trans engine⟩, output', watches',
      header⟩
  · rw [if_neg (by rw [more]; exact PublisherPoint.noConfusion)]
    exact ⟨carries, handled, consistent, ⟨popped, ⟨left, more⟩, engine'.trans engine⟩, output',
      watches', header⟩

/-- The last store of an iteration counts the command among those handled. -/
theorem Flows.count (flows : state.Flows main commands answers) {response : Response}
    {store : HeaderStore} (stage : state.stage = .counting response store) (args : LoopArgs)
    (choice : EngineChoice) :
    ∃ answers, (state.countStep response store args choice).Flows main commands answers := by
  obtain ⟨carries, handled, consistent, agrees, output, watches, header⟩ := flows
  rw [stage] at agrees output header
  obtain ⟨⟨command, point, applied⟩, taking, engine⟩ := agrees
  unfold Pipeline.countStep
  dsimp only
  split
  · rename_i following follows
    refine ⟨answers, carries, handled, consistent, ⟨⟨command, point, applied⟩, taking, engine⟩,
      output, watches, ?_⟩
    rw [header]
    exact SharedHeader.upTo_next _ response follows
  · rename_i last
    obtain ⟨carries', processed, popping⟩ :=
      carries.handled point args.idleExitMs choice.idleFor
    have consistent' := consistent.of_apply applied
    refine ⟨answers ++ [response], carries', ?_, ?_, ⟨?_, taking, ?_⟩, ?_, watches, ?_⟩
    · rw [processed]
      exact MatchingEngine.responses_concat handled applied
    · rw [MatchingEngine.lastEngine_concat]
      exact consistent'
    · rw [popping]
      rfl
    · rw [MatchingEngine.lastEngine_concat]
      exact engine
    · simpa using output
    · rw [header, SharedHeader.countAll_concat]
      exact SharedHeader.upTo_last _ response last

theorem Flows.finish (flows : state.Flows main commands answers) (stage : state.stage = .leaving)
    (args : LoopArgs) (syncFailure : Option String) :
    (state.finishStep args syncFailure).Flows main commands answers := by
  have agrees := flows.agrees
  rw [stage] at agrees
  unfold Pipeline.finishStep
  split
  · cases syncFailure with
    | some strerror =>
        exact flows.moveTo .storingDone flows.carries rfl (by rw [stage]; rfl) (by simp [stage])
          agrees
    | none =>
        exact flows.moveTo .storingDone flows.carries rfl (by rw [stage]; rfl) (by simp [stage])
          agrees
  · exact flows.moveTo .storingDone flows.carries rfl (by rw [stage]; rfl) (by simp [stage]) agrees

theorem Flows.storeDone (flows : state.Flows main commands answers)
    (stage : state.stage = .storingDone) :
    Flows main commands answers { state with
      output := { state.output with engineDone := true, publisher := .finished }
      stage := .exited } := by
  obtain ⟨carries, handled, consistent, agrees, output, watches, header⟩ := flows
  rw [stage] at agrees output header
  obtain ⟨taking, same⟩ := agrees
  have undone : state.output.engineDone ≠ true :=
    output.undone (by rw [taking]; exact PublisherPoint.noConfusion)
  exact ⟨carries, handled, consistent, ⟨rfl, same⟩, output.finish taking,
    watches.of_sameView ⟨rfl, rfl, rfl, rfl, rfl, rfl⟩ undone, header⟩

theorem Flows.engine (flows : state.Flows main commands answers) (args : LoopArgs)
    (choice : EngineChoice) :
    ∃ answers, (state.engineStep args choice).Flows main commands answers := by
  unfold Pipeline.engineStep
  split
  · rename_i stage
    exact ⟨answers, flows.loop stage args choice⟩
  · rename_i stage
    exact ⟨answers, flows.write stage choice.write⟩
  · rename_i stage
    exact ⟨answers, flows.sync stage choice.syncFailure⟩
  · rename_i stage
    exact ⟨answers, flows.apply stage⟩
  · rename_i stage
    exact ⟨answers, flows.publish stage⟩
  · rename_i stage
    exact flows.count stage args choice
  · rename_i stage
    exact ⟨answers, flows.finish stage args choice.syncFailure⟩
  · rename_i stage
    exact ⟨answers, flows.storeDone stage⟩
  · exact ⟨answers, flows⟩
  · exact ⟨answers, flows⟩

theorem Flows.step (flows : state.Flows main commands answers) (args : LoopArgs)
    (event : PipelineEvent) : ∃ answers, (state.step args event).Flows main commands answers := by
  cases event with
  | feed => exact ⟨answers, flows.feed⟩
  | engine choice =>
      simp only [Pipeline.step]
      split
      · exact flows.engine args choice
      · exact ⟨answers, flows⟩
  | kill =>
      exact ⟨answers, flows.carries, flows.handled, flows.consistent, flows.agrees, flows.output,
        flows.watches, flows.header⟩
  | viewer headFirst => exact ⟨answers, flows.viewer headFirst⟩

/-! ### Whole runs -/

theorem exists_flows (consistent : main.engine.Consistent) (args : LoopArgs)
    (commands : List Command) (region : Region orderCapacity tradeCapacity reportCapacity)
    (events : List PipelineEvent) :
    ∃ answers, Flows main commands answers
      (Schedule.run (step args) (initial main commands region) events) := by
  refine Schedule.run_invariant (P := fun state => ∃ answers, Flows main commands answers state)
    ?_ ⟨[], flows_initial consistent commands region⟩ events
  rintro state event ⟨answers, flows⟩
  exact flows.step args event

/-- The answers so far are the first ones to the feed's commands. -/
theorem Flows.answers_prefix (flows : state.Flows main commands answers) {all : List Response}
    (run : main.engine.responses commands = .ok all) :
    answers ++ state.stage.response?.toList <+: all ∧
      answers = all.take state.input.processed.length := by
  obtain ⟨back, rfl⟩ := flows.carries.taken_prefix
  rw [List.append_assoc] at run
  obtain ⟨first, later, rfl, length, ran, rest⟩ := MatchingEngine.responses_split run
  obtain rfl := Except.ok.inj (flows.handled.symm.trans ran)
  refine ⟨?_, by rw [← length, List.take_left]⟩
  cases inHand : state.stage.response? with
  | none =>
      rw [Option.toList_none, List.append_nil]
      exact List.prefix_append _ _
  | some response =>
      obtain ⟨command, point, applied⟩ := flows.agrees.response inHand
      rw [point] at rest
      obtain ⟨answer, later, rfl, applied', _⟩ := MatchingEngine.responses_cons rest
      obtain rfl := Except.ok.inj (applied.symm.trans applied')
      exact (List.prefix_append_right_inj _).mpr ⟨later, rfl⟩

end Pipeline

end Lob
