import Lob.Pipeline.Delivery

/-!
# What the viewer has in the end

A viewer that has left its loop has received what the engine process computed on the commands
that it handled. These are all commands of the feed, unless the engine process left its loop
early: its journal failed, a signal stopped it, or it took the idle exit while commands were
queued. The exit status tells the first, `Undisturbed` excludes the other two.
-/

namespace Lob

/-- The process is out of its main loop. -/
@[simp] def MainStage.outOfLoop : MainStage → Bool
  | .leaving => true
  | .storingDone => true
  | .exited => true
  | _ => false

theorem EnginePoint.exited_of_outOfLoop {point : EnginePoint} {journaling : Bool}
    (out : (point.mainStage journaling).outOfLoop = true) : point = .exited := by
  cases point with
  | exited => rfl
  | processing command => cases journaling <;> contradiction
  | _ => contradiction

namespace Pipeline

variable {orderCapacity tradeCapacity reportCapacity : PowerOfTwo}
  {state : Pipeline orderCapacity tradeCapacity reportCapacity}
  {main : EngineMain} {commands : List Command} {answers : List Response}

/-! ### Runs that handle every command -/

/-- No signal is seen in this step, and the feed does not store `producer_done` while commands
are queued and the engine, whose pop has failed, is about to load it. -/
def Undisturbed (state : Pipeline orderCapacity tradeCapacity reportCapacity) :
    PipelineEvent → Prop
  | .feed => state.input.DoneInTime .feed
  | .engine choice => choice.stop = false
  | .kill => True
  | .viewer _ => True

instance (state : Pipeline orderCapacity tradeCapacity reportCapacity) :
    (event : PipelineEvent) → Decidable (state.Undisturbed event)
  | .feed => inferInstanceAs (Decidable (state.input.DoneInTime .feed))
  | .engine choice => inferInstanceAs (Decidable (choice.stop = false))
  | .kill => inferInstanceAs (Decidable True)
  | .viewer _ => inferInstanceAs (Decidable True)

/-- An engine process that is out of its loop has handled everything, or its journal has
failed. -/
structure Drains (commands : List Command)
    (state : Pipeline orderCapacity tradeCapacity reportCapacity) : Prop where
  input : state.input.Drains commands
  left : state.stage.outOfLoop = true → state.input.engine = .exited ∨ state.journalFailed = true

theorem drains_initial (main : EngineMain) (commands : List Command)
    (region : Region orderCapacity tradeCapacity reportCapacity) :
    (initial main commands region).Drains commands where
  input := FeedEngine.drains_initial _ _ commands
  left := fun impossible => absurd impossible Bool.false_ne_true

/-- A step inside the loop that leaves the order queue alone. -/
theorem Drains.inLoop (drains : state.Drains commands)
    {next : Pipeline orderCapacity tradeCapacity reportCapacity} (input : next.input = state.input)
    (inside : next.stage.outOfLoop = false) : next.Drains commands where
  input := by rw [input]; exact drains.input
  left := fun out => absurd (inside.symm.trans out) Bool.false_ne_true

theorem Drains.failAppend (drains : state.Drains commands) (message : String) :
    (state.failAppend message).Drains commands where
  input := drains.input
  left := fun _ => Or.inr rfl

theorem Drains.loop (drains : state.Drains commands) (args : LoopArgs) {choice : EngineChoice}
    (unstopped : choice.stop = false) : (state.loopStep args choice).Drains commands := by
  unfold loopStep
  split
  · rename_i stopped
    exact absurd (unstopped.symm.trans stopped.1) Bool.false_ne_true
  · exact ⟨drains.input.engineStep args.idleExitMs choice.idleFor,
      fun out => Or.inl (EnginePoint.exited_of_outOfLoop out)⟩

theorem Drains.write (drains : state.Drains commands) (command : Command) (written : Nat)
    (outcome : WriteOutcome) (inside : state.stage.outOfLoop = false) :
    (state.writeStep command written outcome).Drains commands := by
  cases outcome with
  | interrupted => exact drains.inLoop rfl inside
  | failed strerror => exact drains.failAppend _
  | wrote count =>
      simp only [writeStep]
      split
      · exact drains.failAppend _
      split
      · exact drains.inLoop rfl rfl
      split
      · exact drains.inLoop rfl rfl
      · exact drains.inLoop rfl rfl

theorem Drains.apply (drains : state.Drains commands) (command : Command) :
    (state.applyStep command).Drains commands := by
  unfold applyStep
  split
  · exact drains.inLoop rfl rfl
  · exact drains.inLoop rfl rfl

theorem Drains.publish (drains : state.Drains commands) (response : Response) :
    (state.publishStep response).Drains commands := by
  refine drains.inLoop rfl ?_
  simp only [publishStep]
  split <;> rfl

theorem Drains.count (drains : state.Drains commands) (response : Response)
    (store : HeaderStore) (args : LoopArgs) (choice : EngineChoice) :
    (state.countStep response store args choice).Drains commands := by
  unfold countStep
  dsimp only
  split
  · exact drains.inLoop rfl rfl
  · exact ⟨drains.input.engineStep args.idleExitMs choice.idleFor,
      fun out => absurd out Bool.false_ne_true⟩

theorem Drains.finish (drains : state.Drains commands) (stage : state.stage = .leaving)
    (args : LoopArgs) (syncFailure : Option String) :
    (state.finishStep args syncFailure).Drains commands := by
  have left := drains.left (by rw [stage]; rfl)
  unfold finishStep
  split
  · cases syncFailure with
    | some strerror => exact ⟨drains.input, fun _ => Or.inr rfl⟩
    | none => exact ⟨drains.input, fun _ => left⟩
  · exact ⟨drains.input, fun _ => left⟩

theorem Drains.engine (drains : state.Drains commands) (args : LoopArgs) {choice : EngineChoice}
    (unstopped : choice.stop = false) : (state.engineStep args choice).Drains commands := by
  unfold Pipeline.engineStep
  split
  · exact drains.loop args unstopped
  · rename_i stage
    exact drains.write _ _ _ (by rw [stage]; rfl)
  · rename_i command stage
    cases choice.syncFailure with
    | some strerror => exact drains.failAppend _
    | none => exact drains.inLoop rfl rfl
  · exact drains.apply _
  · exact drains.publish _
  · exact drains.count _ _ args choice
  · rename_i stage
    exact drains.finish stage args choice.syncFailure
  · rename_i stage
    exact ⟨drains.input, fun _ => drains.left (by rw [stage]; rfl)⟩
  · exact drains
  · exact drains

theorem Drains.step (drains : state.Drains commands) (args : LoopArgs) {event : PipelineEvent}
    (undisturbed : state.Undisturbed event) : (state.step args event).Drains commands := by
  cases event with
  | feed =>
      refine ⟨drains.input.feedStep undisturbed, fun out => ?_⟩
      rw [show (state.step args .feed).input.engine = state.input.engine from
        state.input.feedStep_engine]
      exact drains.left out
  | engine choice =>
      simp only [Pipeline.step]
      split
      · exact drains.engine args undisturbed
      · exact drains
  | kill => exact ⟨drains.input, drains.left⟩
  | viewer headFirst => exact ⟨drains.input, drains.left⟩

/-- The engine process has ended with status 0. -/
theorem Drains.processed_all (drains : state.Drains commands) (exited : state.stage = .exited)
    (status : state.exitStatus = 0) : state.input.processed = commands := by
  rcases drains.left (by rw [exited]; rfl) with left | failed
  · obtain ⟨_, processed, pushed⟩ := drains.input.processed_all left
    exact processed.trans pushed
  · rw [exitStatus, if_pos failed] at status
    contradiction

/-! ### What has arrived -/

/-- When the viewer has left its loop, it has received these answers, and its totals are
what the process has added to the header. -/
structure Received (main : EngineMain) (answers : List Response)
    (state : Pipeline orderCapacity tradeCapacity reportCapacity) : Prop where
  reports : state.output.reportQueue.popped = answers.map Response.report
  trades : state.output.tradeQueue.popped = answers.flatMap Response.outTrades
  processed : state.header.processedCommands =
    main.header.processedCommands + state.output.reportsSeen
  rejected : state.header.rejectedCommands =
    main.header.rejectedCommands + state.output.rejectedSeen
  generated : state.header.tradesGenerated =
    main.header.tradesGenerated + state.output.tradesSeen

/-- A viewer leaves its loop after the engine process has ended. -/
theorem Flows.stage_exited (flows : state.Flows main commands answers)
    (exited : state.output.viewer = .exited) : state.stage = .exited := by
  have knows := flows.watches.knows
  rw [exited] at knows
  have agrees := flows.agrees
  rw [flows.output.done knows.1] at agrees
  exact agrees.eq_exited

theorem Flows.received (flows : state.Flows main commands answers)
    (exited : state.output.viewer = .exited) : state.Received main answers := by
  have stage := flows.stage_exited exited
  obtain ⟨_, _, _, _, output, watches, header⟩ := flows
  have knows := watches.knows
  rw [exited] at knows
  obtain ⟨done, noTrades, noReports⟩ := knows
  have finished := output.done done
  rw [stage] at output header
  have tradesSent := output.trades
  have reportsSent := output.reports
  rw [finished] at tradesSent reportsSent
  simp only [MainStage.response?, Option.toList_none, List.append_nil] at tradesSent reportsSent
  obtain ⟨tradesPopped, tradesPushed⟩ := tradesSent.popped_eq noTrades
  obtain ⟨reportsPopped, reportsPushed⟩ := reportsSent.popped_eq noReports
  have trades := tradesPopped.trans tradesPushed
  have reports := reportsPopped.trans reportsPushed
  refine ⟨reports, trades, ?_, ?_, ?_⟩
  · rw [header, watches.reportsSeen, reports, List.length_map]
    exact SharedHeader.countAll_processed _ _
  · rw [header, watches.rejectedSeen, reports]
    exact SharedHeader.countAll_rejected _ _
  · rw [header, watches.tradesSeen, trades]
    exact SharedHeader.countAll_trades _ _

/-- In every run of the three processes the viewer receives the first trades and reports of
the engine on the feed's commands, in order, whichever process is delayed, stopped or killed
and whatever the journal's system calls do. When the viewer ends, it has received those of
all commands that the engine process has handled, and its totals are the process's. If the
engine process has ended with status 0 in a run without disturbance, these are all commands of
the feed. -/
theorem viewer_receives_feed {args : MainArgs} {file : Option (List UInt8)} {main : EngineMain}
    (started : EngineMain.start args file = .ok (some main)) (loopArgs : LoopArgs)
    (commands : List Command) (region : Region orderCapacity tradeCapacity reportCapacity)
    (events : List PipelineEvent) :
    let state := Schedule.run (step loopArgs) (initial main commands region) events
    ∃ recovered earlier answers, args.Recovered file recovered ∧
      earlier.length = recovered.length ∧
      (MatchingEngine.fresh args.riskLimits).responses (recovered ++ commands) =
        .ok (earlier ++ answers) ∧
      state.output.reportQueue.popped <+: answers.map Response.report ∧
      state.output.tradeQueue.popped <+: answers.flatMap Response.outTrades ∧
      (state.output.viewer = .exited → state.input.processed <+: commands ∧
        state.Received main (answers.take state.input.processed.length)) ∧
      (state.output.viewer = .exited → state.exitStatus = 0 →
        Schedule.Respects (step loopArgs) Undisturbed (initial main commands region) events →
        state.Received main answers) := by
  intro state
  obtain ⟨_, recovered, source, running⟩ := EngineMain.running_start started
  obtain ⟨earlier, ranEarlier, engine, _⟩ := running.follows
  obtain ⟨answers, ran, length⟩ := running.consistent.responses commands
  obtain ⟨handled, flows⟩ := exists_flows running.consistent loopArgs commands region events
  obtain ⟨front, taken⟩ := flows.answers_prefix ran
  refine ⟨recovered, earlier, answers, source, ?_, ?_, ?_, ?_, fun exited => ⟨?_, ?_⟩,
    fun exited status undisturbed => ?_⟩
  · obtain ⟨_, ranEarlier', length'⟩ :=
      (consistent_fresh args.riskLimits).responses recovered
    obtain rfl := Except.ok.inj (ranEarlier.symm.trans ranEarlier')
    exact length'
  · exact MatchingEngine.responses_append ranEarlier (by rw [engine]; exact ran)
  · exact flows.output.reports.prefix_popped.trans (front.map Response.report)
  · obtain ⟨later, rfl⟩ := front
    rw [List.flatMap_append]
    exact flows.output.trades.prefix_popped.trans (List.prefix_append _ _)
  · exact (List.prefix_append _ _).trans flows.carries.taken_prefix
  · rw [← taken]
    exact flows.received exited
  · have drains : state.Drains commands :=
      Schedule.run_invariant_of_respects (fun _ _ known allowed => known.step loopArgs allowed)
        (drains_initial main commands region) undisturbed
    rw [drains.processed_all (flows.stage_exited exited) status, ← length, List.take_length]
      at taken
    rw [← taken]
    exact flows.received exited

/-- Two orders that trade, through queues with room for two. The engine process takes the idle
exit, and the viewer ends. -/
theorem viewer_receives_two_orders :
    let two : PowerOfTwo := { value := 2, powerOfTwo := by decide, positive := by decide }
    let region : Region two two two := .constructed
    let commands : List Command :=
      [.newOrder { id := 1, side := .buy, price := 100, quantity := 10 },
        .newOrder { id := 2, side := .sell, price := 99, quantity := 4 }]
    let events : List PipelineEvent :=
      List.replicate 9 .feed ++ List.replicate 44 (.engine { idleFor := 2 }) ++
        List.replicate 30 (.viewer true)
    ∃ main, EngineMain.start { journal := .truncate } none = .ok (some main) ∧
      let state := Schedule.run (step { idleExitMs := 1, syncJournal := false })
        (initial main commands region) events
      state.output.viewer = .exited ∧ state.exitStatus = 0 ∧ state.output.tradesSeen = 1 ∧
        ∃ answers, main.engine.responses commands = .ok answers ∧ state.Received main answers := by
  intro two region commands events
  have started : EngineMain.start { journal := .truncate } none = .ok (some _) := rfl
  refine ⟨_, started, ?_⟩
  intro state
  have exited : state.output.viewer = .exited := by decide +kernel
  have status : state.exitStatus = 0 := by decide +kernel
  have seen : state.output.tradesSeen = 1 := by decide +kernel
  obtain ⟨recovered, earlier, answers, source, length, run, _, _, _, all⟩ :=
    viewer_receives_feed started { idleExitMs := 1, syncJournal := false } commands region events
  -- nothing was recovered, so the engine starts fresh
  obtain rfl : recovered = [] := source
  obtain rfl := List.eq_nil_of_length_eq_zero length
  exact ⟨exited, status, seen, answers, run, all exited status (by decide +kernel)⟩

end Pipeline

end Lob
