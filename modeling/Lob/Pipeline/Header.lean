import Lob.Pipeline.Delivery

/-!
# The header in the middle of an iteration

The main loop moves the counters of the header one store at a time, after the report of the
command is pushed. A process that looks at the header in between, or after the engine
process was killed there, finds the counters of a command halfway.
-/

namespace Lob

namespace SharedHeader

variable {header : SharedHeader} {engine : MatchingEngine} {trades : Nat}

theorem Agrees.countAll (agrees : header.Agrees engine trades) (consistent : engine.Consistent)
    {commands : List Command} {answers : List Response}
    (run : engine.responses commands = .ok answers) :
    (header.countAll answers).Agrees (engine.lastEngine answers)
      (trades + (answers.flatMap Response.outTrades).length) := by
  induction commands generalizing header engine trades answers with
  | nil =>
      obtain rfl := Except.ok.inj run
      exact agrees
  | cons command commands ih =>
      obtain ⟨answer, later, rfl, applied, rest⟩ := MatchingEngine.responses_cons run
      have consistent' := consistent.of_apply applied
      have final := ih (agrees.count consistent applied) consistent' rest
      rw [Nat.add_assoc, ← List.length_append] at final
      rwa [MatchingEngine.lastEngine_cons]

theorem store_processed (header : SharedHeader) (response : Response) (store : HeaderStore) :
    (header.store response store).processedCommands =
      header.processedCommands + if store = .processed then 1 else 0 := by
  cases store with
  | outcome => simp only [SharedHeader.store]; split <;> simp
  | canceled => simp only [SharedHeader.store]; split <;> simp
  | _ => simp [SharedHeader.store]

theorem store_outcomes (header : SharedHeader) (response : Response) (store : HeaderStore) :
    (header.store response store).acceptedCommands +
        (header.store response store).rejectedCommands =
      header.acceptedCommands + header.rejectedCommands + if store = .outcome then 1 else 0 := by
  cases store with
  | outcome => simp only [SharedHeader.store]; split <;> simp <;> grind
  | canceled => simp only [SharedHeader.store]; split <;> simp
  | _ => simp [SharedHeader.store]

theorem store_lastSequence (header : SharedHeader) (response : Response) {store : HeaderStore}
    (other : store ≠ .lastSequence) :
    (header.store response store).book.lastSequence = header.book.lastSequence := by
  cases store with
  | outcome => simp only [SharedHeader.store]; split <;> rfl
  | canceled => simp only [SharedHeader.store]; split <;> rfl
  | lastSequence => contradiction
  | _ => rfl

/-- Up to the last store, each counter is as before the command or one further. -/
theorem upTo_lags (header : SharedHeader) (response : Response) (store : HeaderStore) :
    (header.upTo response store).processedCommands =
        header.processedCommands + (if store = .processed then 0 else 1) ∧
      (header.upTo response store).acceptedCommands +
          (header.upTo response store).rejectedCommands =
        header.acceptedCommands + header.rejectedCommands +
          (if store = .processed ∨ store = .outcome then 0 else 1) ∧
      (header.upTo response store).book.lastSequence = header.book.lastSequence := by
  cases store <;>
    simp [upTo, HeaderStore.earlier, store_processed, store_outcomes, store_lastSequence]

end SharedHeader

namespace Pipeline

variable {orderCapacity tradeCapacity reportCapacity : PowerOfTwo}
  {state : Pipeline orderCapacity tradeCapacity reportCapacity}
  {main : EngineMain} {commands : List Command} {answers : List Response}

/-- How far the report queue and the header are behind an engine process that has computed
this many responses since it came up as `main`: each counter by at most one. No report is
counted before it is pushed. -/
structure LagsByOne (main : EngineMain) (computed : Nat)
    (state : Pipeline orderCapacity tradeCapacity reportCapacity) : Prop where
  pushed : ∃ lag ≤ 1, state.output.reportQueue.pushed.length + lag = computed
  reports : ∃ lag ≤ 1, state.header.processedCommands + lag =
    main.header.processedCommands + UInt64.ofNat state.output.reportQueue.pushed.length
  processed : ∃ lag ≤ 1, state.header.processedCommands + lag =
    main.header.processedCommands + UInt64.ofNat computed
  outcomes : ∃ lag ≤ 1, state.header.acceptedCommands + state.header.rejectedCommands + lag =
    main.header.acceptedCommands + main.header.rejectedCommands + UInt64.ofNat computed
  lastSequence : ∃ lag ≤ 1, state.header.book.lastSequence + lag =
    main.header.book.lastSequence + UInt64.ofNat computed

/-- The report in hand is pushed when its command is being counted. -/
theorem Flows.reports_pushed (flows : state.Flows main commands answers) :
    state.output.reportQueue.pushed.length =
      answers.length + (match state.stage with | .counting _ _ => 1 | _ => 0) := by
  have sent := congrArg List.length flows.output.reports.sent
  have agrees := flows.agrees
  simp only [List.length_append, List.length_map, List.map_nil, List.append_nil] at sent
  cases stage : state.stage with
  | publishing response =>
      rw [stage] at agrees sent
      obtain ⟨_, ⟨trades, point⟩, _⟩ := agrees
      simpa [point] using sent
  | counting response store =>
      rw [stage] at agrees sent
      simpa [agrees.2.1] using sent
  | looping => rw [stage] at agrees sent; simpa [agrees.2.1] using sent
  | writing _ _ => rw [stage] at agrees sent; simpa [agrees.2.1] using sent
  | syncing _ => rw [stage] at agrees sent; simpa [agrees.2.1] using sent
  | applying _ => rw [stage] at agrees sent; simpa [agrees.2.1] using sent
  | leaving => rw [stage] at agrees sent; simpa [agrees.1] using sent
  | storingDone => rw [stage] at agrees sent; simpa [agrees.1] using sent
  | exited => rw [stage] at agrees sent; simpa [agrees.1] using sent
  | faulted => rw [stage] at agrees; exact agrees.elim

/-- The responses computed so far, that in hand included, and where they leave the engine. -/
theorem Flows.computed (flows : state.Flows main commands answers) :
    ∃ handled, handled <+: commands ∧
      main.engine.responses handled = .ok (answers ++ state.stage.response?.toList) ∧
      state.output.engine = main.engine.lastEngine (answers ++ state.stage.response?.toList) := by
  have taken := flows.carries.taken_prefix
  have agrees := flows.agrees
  cases inHand : state.stage.response? with
  | none =>
      rw [Option.toList_none, List.append_nil]
      exact ⟨state.input.processed, (List.prefix_append _ _).trans taken, flows.handled,
        agrees.engine_of_none inHand⟩
  | some response =>
      obtain ⟨command, point, applied⟩ := agrees.response inHand
      rw [point] at taken
      refine ⟨state.input.processed ++ [command], taken,
        MatchingEngine.responses_concat flows.handled applied, ?_⟩
      rw [Option.toList_some, MatchingEngine.lastEngine_concat]
      exact agrees.engine_of_some inHand

/-- Between two commands, and while a response is being pushed, every counter stands at the
commands handled so far. -/
theorem lagsByOne_of_counted {handled lag : Nat} (small : lag ≤ 1)
    (pushed : state.output.reportQueue.pushed.length = handled)
    (processed : state.header.processedCommands =
      main.header.processedCommands + UInt64.ofNat handled)
    (outcomes : state.header.acceptedCommands + state.header.rejectedCommands =
      main.header.acceptedCommands + main.header.rejectedCommands + UInt64.ofNat handled)
    (lastSequence : state.header.book.lastSequence =
      main.header.book.lastSequence + UInt64.ofNat handled) :
    state.LagsByOne main (handled + lag) := by
  have small' : UInt64.ofNat lag ≤ 1 := by
    rcases Nat.le_one_iff_eq_zero_or_eq_one.mp small with rfl | rfl
    · decide
    · decide
  refine ⟨⟨lag, small, by rw [pushed]⟩, ⟨0, by decide, by rw [processed, pushed, UInt64.add_zero]⟩,
    ⟨.ofNat lag, small', ?_⟩, ⟨.ofNat lag, small', ?_⟩, ⟨.ofNat lag, small', ?_⟩⟩
  · rw [processed, UInt64.ofNat_add, UInt64.add_assoc]
  · rw [outcomes, UInt64.ofNat_add, UInt64.add_assoc]
  · rw [lastSequence, UInt64.ofNat_add, UInt64.add_assoc]

theorem Flows.lagsByOne (flows : state.Flows main commands answers) {trades : Nat}
    (agrees : main.header.Agrees main.engine trades) (consistent : main.engine.Consistent) :
    state.LagsByOne main (answers ++ state.stage.response?.toList).length := by
  have counted := agrees.countAll consistent flows.handled
  have pushed := flows.reports_pushed
  have header := flows.header
  have processed := SharedHeader.countAll_processed main.header answers
  have outcomes := SharedHeader.countAll_outcomes main.header answers
  have sequence : (main.header.countAll answers).book.lastSequence =
      main.header.book.lastSequence + UInt64.ofNat answers.length := by
    rw [counted.lastSequence.trans counted.processed.symm, processed,
      agrees.lastSequence.trans agrees.processed.symm]
  rw [List.length_append]
  cases stage : state.stage with
  | counting response store =>
      rw [stage] at header pushed
      obtain ⟨first, second, third⟩ := (main.header.countAll answers).upTo_lags response store
      rw [← MainStage.counted, ← header] at first second third
      rw [processed] at first
      rw [outcomes] at second
      rw [sequence] at third
      have one : UInt64.ofNat (answers.length + 1) = UInt64.ofNat answers.length + 1 :=
        UInt64.ofNat_add ..
      have counts : ∃ lag ≤ 1, state.header.processedCommands + lag =
          main.header.processedCommands + UInt64.ofNat (answers.length + 1) := by
        refine ⟨if store = .processed then 1 else 0, by split <;> decide, ?_⟩
        rw [first, one]
        split <;> grind
      refine ⟨⟨0, by decide, pushed⟩, by rw [pushed]; exact counts, counts, ?_, ?_⟩
      · refine ⟨if store = .processed ∨ store = .outcome then 1 else 0, by split <;> decide, ?_⟩
        rw [second, MainStage.response?, Option.toList_some, List.length_singleton, one]
        split <;> grind
      · refine ⟨1, by decide, ?_⟩
        rw [third, MainStage.response?, Option.toList_some, List.length_singleton, one,
          UInt64.add_assoc]
  | _ =>
      rw [stage] at header pushed
      have settled : state.header = main.header.countAll answers := header
      rw [← settled] at processed outcomes sequence
      exact lagsByOne_of_counted Option.length_toList_le pushed processed outcomes sequence

/-- In every state of every run, also one in which the engine process was killed between two
stores: of the responses that the engine process has computed at most the last one is missing
in each counter of the header. -/
theorem header_lags_by_one {args : MainArgs} {file : Option (List UInt8)} {main : EngineMain}
    (started : EngineMain.start args file = .ok (some main)) (loopArgs : LoopArgs)
    (commands : List Command) (region : Region orderCapacity tradeCapacity reportCapacity)
    (events : List PipelineEvent) :
    let state := Schedule.run (step loopArgs) (initial main commands region) events
    ∃ handled answers, handled <+: commands ∧ main.engine.responses handled = .ok answers ∧
      state.output.engine = main.engine.lastEngine answers ∧
      state.LagsByOne main answers.length := by
  intro state
  obtain ⟨_, recovered, _, running⟩ := EngineMain.running_start started
  obtain ⟨_, _, _, agrees⟩ := running.follows
  obtain ⟨_, flows⟩ := exists_flows running.consistent loopArgs commands region events
  obtain ⟨handled, front, run, engine⟩ := flows.computed
  exact ⟨handled, _, front, run, engine, flows.lagsByOne agrees running.consistent⟩

/-- The engine process is killed after the first store for its first command. -/
theorem header_lags_killed :
    let two : PowerOfTwo := { value := 2, powerOfTwo := by decide, positive := by decide }
    let region : Region two two two := .constructed
    let events : List PipelineEvent :=
      List.replicate 4 .feed ++ List.replicate 10 (.engine {}) ++ [.kill, .engine {}]
    ∃ main, EngineMain.start {} none = .ok (some main) ∧
      let state := Schedule.run (step { idleExitMs := 0, syncJournal := false })
        (initial main [.cancel 7] region) events
      state.header.processedCommands = 1 ∧ state.header.rejectedCommands = 0 ∧
        ∃ answers, main.engine.responses [.cancel 7] = .ok answers ∧
          state.LagsByOne main answers.length := by
  intro two region events
  have started : EngineMain.start {} none = .ok (some _) := rfl
  refine ⟨_, started, ?_⟩
  intro state
  have one : state.output.reportQueue.pushed.length = 1 := by decide +kernel
  obtain ⟨handled, answers, front, run, _, lags⟩ := header_lags_by_one started
    { idleExitMs := 0, syncJournal := false } [.cancel 7] region events
  refine ⟨by decide +kernel, by decide +kernel, answers, ?_, lags⟩
  -- one report is in the queue, so one command was handled
  obtain ⟨lag, _, pushed⟩ := lags.pushed
  rcases List.prefix_cons_iff.mp front with rfl | ⟨rest, rfl, nil⟩
  · obtain rfl := Except.ok.inj run
    have none : state.output.reportQueue.pushed.length + lag = 0 := pushed
    omega
  · rwa [List.prefix_nil.mp nil] at run

end Pipeline

end Lob
