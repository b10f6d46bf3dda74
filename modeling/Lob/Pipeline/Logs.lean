import Lob.Journal.Prefix
import Lob.Pipeline.Delivery

/-!
# What the journal file holds

With a journal the engine process writes the record of a command before it applies the
command, and with `--sync-journal` it has the record synced as well. So at every step the
file holds the records of all commands whose trades and reports have been pushed, at most
one complete record more, and possibly the beginning of one.
-/

namespace Lob

variable {file : Option (List UInt8)}

open Journal

namespace Journal

@[simp] theorem journaled_decodeCommand (bytes : List UInt8) :
    journaled (decodeCommand bytes) = decodeCommand bytes := by
  unfold decodeCommand
  split <;> rfl

theorem map_journaled_decodeCommand (records : List (List UInt8)) :
    (records.map decodeCommand).map journaled = records.map decodeCommand := by
  rw [List.map_map]
  exact List.map_congr_left (fun bytes _ => journaled_decodeCommand bytes)

end Journal

/-! ### A journal that was opened -/

theorem EventJournal.content_of_openJournal {journal opened : EventJournal} {mode : JournalOpenMode}
    {durability : JournalDurability} {calls : OpenCalls} {content : List UInt8}
    (result : journal.openJournal file mode durability calls = (opened, some content, true)) :
    content = mode.initialContent file := by
  cases mode with
  | truncate => exact (openFile_eq_true result).2
  | append =>
      simp only [openJournal] at result
      split at result
      · exact (openFile_eq_true result).2
      · exact absurd (congrArg (fun triple => triple.2.2) result) Bool.false_ne_true

theorem Session.tracks_of_openProcess {session : Session} {recover : Bool}
    {replayResult : JournalReplayResult} {engine : MatchingEngine} {start : StartUp}
    (opened : session.openProcess recover file replayResult engine = some start) :
    start.process.journal.durability = session.durability ∧
      start.process.file = (if recover then file.getD [] else []) ∧
      ∃ records, start.process.journal.Tracks start.process.file records := by
  simp only [Session.openProcess] at opened
  split at opened
  · rename_i journal content result
    obtain rfl := Option.some.inj opened
    obtain ⟨durability, tracks⟩ := EventJournal.tracks_of_openJournal result
    refine ⟨durability, ?_, tracks⟩
    rw [EventJournal.content_of_openJournal result]
    cases recover <;> rfl
  · contradiction

/-- The journal of a process that comes up holds exactly the commands that it recovered. -/
theorem EngineMain.tracks_of_start {args : MainArgs} {main : EngineMain}
    (started : EngineMain.start args file = .ok (some main)) (journaling : args.journal ≠ .off)
    {recovered : List Command} (recovers : args.Recovered file recovered) :
    main.journal.durability = args.session.durability ∧
      ∃ records, main.journal.Tracks main.file records ∧
        records.map decodeCommand = recovered := by
  unfold EngineMain.start at started
  unfold MainArgs.Recovered at recovers
  split at started
  · contradiction
  · rename_i truncate
    obtain ⟨start, opened, rfl⟩ := EngineMain.exists_startUp started
    rw [truncate] at recovers
    simp only [Session.start, Bool.false_eq_true, if_false, pure, Except.pure] at opened
    obtain ⟨durability, content, records, tracks⟩ :=
      Session.tracks_of_openProcess (Except.ok.inj opened)
    have none : records = [] := by
      have length := tracks.valid.length_flatten
      rw [← tracks.file, content] at length
      exact List.length_eq_zero_iff.mp (by simpa [kRecordSize] using length)
    exact ⟨durability, records, tracks, by rw [none, recovers]; rfl⟩
  · rename_i recover
    obtain ⟨start, opened, rfl⟩ := EngineMain.exists_startUp started
    rw [recover] at recovers
    obtain ⟨old, rfl, valid, rfl⟩ := recovers
    simp only [Session.start, if_true, bind, Except.bind, pure, Except.pure] at opened
    split at opened
    · contradiction
    split at opened
    · obtain ⟨durability, content, records, tracks⟩ :=
        Session.tracks_of_openProcess (Except.ok.inj opened)
      refine ⟨durability, records, tracks, ?_⟩
      -- both lists of records make up the same file
      have calm : NoReadFailure [] := fun _ inNil => absurd inNil List.not_mem_nil
      rw [← appliedCommands_of_valid tracks.valid calm, ← tracks.file, content]
      exact appliedCommands_of_valid valid calm
    · exact absurd (Except.ok.inj opened) (by simp)

/-! ### What the file holds -/

namespace MainStage

/-- The record of the command in hand is complete, and synced if it has to be. -/
@[simp] def pastJournal : MainStage → Bool
  | .applying _ => true
  | .publishing _ => true
  | .counting _ _ => true
  | _ => false

/-- What lies behind the records of the handled commands: those of `logged`, which are at
most the command in hand, and the bytes of a `torn` record. -/
def Keeps (ordinal : UInt64) (inFlight logged : List Command) (torn : List UInt8) :
    MainStage → Prop
  | .looping => torn = []
  | .writing command written =>
      logged = [] ∧ written < kRecordSize ∧ torn = (encodeCommand ordinal command).take written
  | .syncing _ => logged = inFlight ∧ torn = []
  | .applying _ => logged = inFlight ∧ torn = []
  | .publishing _ => logged = inFlight ∧ torn = []
  | .counting _ _ => logged = inFlight ∧ torn = []
  | .leaving => True
  | .storingDone => True
  | .exited => True
  | .faulted => True

end MainStage

namespace Pipeline

variable {orderCapacity tradeCapacity reportCapacity : PowerOfTwo}
  {state : Pipeline orderCapacity tradeCapacity reportCapacity}
  {main : EngineMain} {commands recovered logged : List Command} {answers : List Response}
  {records : List (List UInt8)} {torn : List UInt8}
variable {command : Command}

/-- The commands whose record the process has made sure of before it went on. -/
def secured (state : Pipeline orderCapacity tradeCapacity reportCapacity) : List Command :=
  state.input.processed ++ if state.stage.pastJournal then state.input.engine.inFlight else []

/-- The file holds `records` for the commands that were there before, those that are handled
and `logged`, with `torn` behind them. -/
structure Logs (recovered : List Command) (records : List (List UInt8)) (torn : List UInt8)
    (logged : List Command) (state : Pipeline orderCapacity tradeCapacity reportCapacity) :
    Prop where
  isOpen : state.journal.isOpen = true
  file : state.file = records.flatten ++ torn
  valid : ValidFrom 1 records
  nextOrdinal : state.journal.nextOrdinal = 1 + UInt64.ofNat records.length
  decoded : records.map decodeCommand =
    (recovered ++ state.input.processed ++ logged).map journaled
  inHand : logged <+: state.input.engine.inFlight
  short : torn.length < kRecordSize
  stage : state.stage.Keeps state.journal.nextOrdinal state.input.engine.inFlight logged torn
  synced : state.journal.durability = .fdatasyncEachRecord → state.secured ≠ [] →
    kRecordSize * (recovered.length + state.secured.length) ≤ state.synced

theorem Logs.length_records (logs : state.Logs recovered records torn logged) :
    records.length = recovered.length + state.input.processed.length + logged.length := by
  have count := congrArg List.length logs.decoded
  rwa [List.length_map, List.length_map, List.length_append, List.length_append] at count

theorem Logs.length_file (logs : state.Logs recovered records torn logged) :
    kRecordSize * (recovered.length + state.input.processed.length + logged.length) ≤
      state.file.length := by
  rw [logs.file, List.length_append, logs.valid.length_flatten, logs.length_records]
  omega

theorem logs_initial (tracks : main.journal.Tracks main.file records)
    (decoded : records.map decodeCommand = recovered) (commands : List Command)
    (region : Region orderCapacity tradeCapacity reportCapacity) :
    (initial main commands region).Logs recovered records [] [] where
  isOpen := tracks.isOpen
  file := tracks.file.trans (List.append_nil _).symm
  valid := tracks.valid
  nextOrdinal := tracks.nextOrdinal
  decoded := by
    rw [List.append_nil, ← decoded]
    change _ = (records.map decodeCommand ++ []).map journaled
    rw [List.append_nil, map_journaled_decodeCommand]
  inHand := List.nil_prefix
  short := by decide
  stage := rfl
  synced := fun _ some => absurd rfl some

/-- The process goes to another stage without writing to the file. -/
theorem Logs.moveTo (logs : state.Logs recovered records torn logged) (stage : MainStage)
    {input : FeedEngine orderCapacity} (processed : input.processed = state.input.processed)
    (inHand : logged <+: input.engine.inFlight)
    (keeps : stage.Keeps state.journal.nextOrdinal input.engine.inFlight logged torn)
    (secured : (input.processed ++ if stage.pastJournal then input.engine.inFlight else []) =
      state.secured)
    {output : EngineViewer tradeCapacity reportCapacity} {header : SharedHeader}
    {journalFailed : Bool} {lastError : String} :
    Logs recovered records torn logged { state with
      input, stage, output, header, journalFailed
      journal := { state.journal with lastError } } where
  isOpen := logs.isOpen
  file := logs.file
  valid := logs.valid
  nextOrdinal := logs.nextOrdinal
  decoded := by rw [processed]; exact logs.decoded
  inHand := inHand
  short := logs.short
  stage := keeps
  synced := by
    intro durable some
    rw [Pipeline.secured, secured] at some ⊢
    exact logs.synced durable some

theorem Logs.loop (logs : state.Logs recovered records torn logged)
    (flows : state.Flows main commands answers) (stage : state.stage = .looping)
    (args : LoopArgs) (choice : EngineChoice) :
    (state.loopStep args choice).Logs recovered records torn logged := by
  have agrees := flows.agrees
  have keeps := logs.stage
  have inHand := logs.inHand
  have same : state.secured = state.input.processed := by simp [secured, stage]
  rw [stage] at agrees keeps
  rw [agrees.1, List.prefix_nil] at inHand
  unfold Pipeline.loopStep
  split
  · exact logs.moveTo .leaving rfl logs.inHand trivial (by rw [same]; exact List.append_nil _)
  · obtain ⟨_, processed⟩ := flows.carries.loop agrees.1 args.idleExitMs choice.idleFor
    rw [logs.isOpen]
    refine logs.moveTo _ processed (by rw [inHand]; exact List.nil_prefix) ?_ ?_
    · cases (state.input.engineStep args.idleExitMs choice.idleFor).engine with
      | processing command => exact ⟨inHand, by decide, keeps⟩
      | exited => trivial
      | _ => exact keeps
    · rw [same, ← processed]
      cases (state.input.engineStep args.idleExitMs choice.idleFor).engine <;>
        exact List.append_nil _

/-- The last byte of a record. -/
theorem Logs.complete (logs : state.Logs recovered records torn []) {written : Nat}
    (stage : state.stage = .writing command written)
    (point : state.input.engine = .processing command) :
    Logs recovered (records ++ [encodeCommand state.journal.nextOrdinal command]) [] [command]
      { state with
        file := records.flatten ++ encodeCommand state.journal.nextOrdinal command
        journal := { state.journal with nextOrdinal := state.journal.nextOrdinal + 1 }
        stage :=
          if state.journal.durability = .fdatasyncEachRecord then .syncing command
          else .applying command } where
  isOpen := logs.isOpen
  file := by rw [List.flatten_append, List.flatten_singleton, List.append_nil]
  valid := by
    rw [ValidFrom.append, ← logs.nextOrdinal]
    exact ⟨logs.valid, length_encodeCommand _ _, validateRecord_encodeCommand _ _, trivial⟩
  nextOrdinal := by
    rw [logs.nextOrdinal, List.length_append, List.length_singleton, UInt64.ofNat_add,
      UInt64.add_assoc]
    rfl
  decoded := by
    have before := logs.decoded
    rw [List.append_nil] at before
    rw [List.map_append, List.map_append, before, List.map_singleton, List.map_singleton,
      decodeCommand_encodeCommand]
  inHand := by rw [point]; exact List.prefix_rfl
  short := by decide
  stage := by
    rw [point]
    dsimp only
    split
    · exact ⟨rfl, rfl⟩
    · exact ⟨rfl, rfl⟩
  synced := by
    intro durable some
    replace durable : state.journal.durability = .fdatasyncEachRecord := durable
    have secured := logs.synced durable
    simp only [Pipeline.secured, stage, durable, if_true, MainStage.pastJournal,
      Bool.false_eq_true, if_false, List.append_nil] at secured some ⊢
    exact secured some

theorem Logs.write (logs : state.Logs recovered records torn logged)
    (flows : state.Flows main commands answers) {written : Nat}
    (stage : state.stage = .writing command written) (outcome : WriteOutcome) :
    ∃ records torn logged,
      (state.writeStep command written outcome).Logs recovered records torn logged := by
  have agrees := flows.agrees
  have keeps := logs.stage
  have same : state.secured = state.input.processed := by simp [secured, stage]
  rw [stage] at agrees keeps
  obtain ⟨rfl, within, rfl⟩ := keeps
  have fails : ∀ message, (state.failAppend message).Logs recovered records
      ((encodeCommand state.journal.nextOrdinal command).take written) [] := fun message =>
    logs.moveTo .leaving rfl logs.inHand trivial (by rw [same]; exact List.append_nil _)
  cases outcome with
  | interrupted => exact ⟨_, _, _, logs⟩
  | failed strerror => exact ⟨_, _, _, fails _⟩
  | wrote count =>
      simp only [Pipeline.writeStep]
      split
      · exact ⟨_, _, _, fails _⟩
      have grown : state.file ++ ((encodeCommand state.journal.nextOrdinal command).drop
          written).take (min count (kRecordSize - written)) = records.flatten ++
          (encodeCommand state.journal.nextOrdinal command).take
            (written + min count (kRecordSize - written)) := by
        rw [logs.file, List.append_assoc, List.take_add]
      rw [grown]
      split
      · rename_i more
        refine ⟨records, _, [], logs.isOpen, rfl, logs.valid, logs.nextOrdinal, logs.decoded,
          List.nil_prefix, ?_, ⟨rfl, more, rfl⟩, ?_⟩
        · rw [List.length_take]
          omega
        · intro durable some
          have secured := logs.synced durable
          rw [same] at secured
          simpa [Pipeline.secured] using secured (by simpa [Pipeline.secured] using some)
      · rename_i whole
        rw [List.take_of_length_le (by rw [length_encodeCommand]; omega)]
        exact ⟨_, _, _, logs.complete stage agrees.1⟩

theorem Logs.sync (logs : state.Logs recovered records torn logged)
    (flows : state.Flows main commands answers) (stage : state.stage = .syncing command)
    (syncFailure : Option String) :
    (state.syncStep command syncFailure).Logs recovered records torn logged := by
  have agrees := flows.agrees
  have keeps := logs.stage
  rw [stage] at agrees keeps
  cases syncFailure with
  | some strerror =>
      exact logs.moveTo .leaving rfl logs.inHand trivial (by simp [secured, stage])
  | none =>
      refine { logs with stage := keeps, synced := fun _ _ => ?_ }
      have length := logs.length_file
      rw [keeps.1, Nat.add_assoc, ← List.length_append] at length
      exact length

theorem Logs.apply (logs : state.Logs recovered records torn logged)
    (flows : state.Flows main commands answers) (stage : state.stage = .applying command) :
    (state.applyStep command).Logs recovered records torn logged := by
  have agrees := flows.agrees
  have keeps := logs.stage
  rw [stage] at agrees keeps
  obtain ⟨response, applied, _⟩ := flows.consistent.apply command []
  unfold Pipeline.applyStep
  rw [agrees.2.2, applied]
  exact logs.moveTo (.publishing response) rfl logs.inHand keeps (by simp [secured, stage])

theorem Logs.publish (logs : state.Logs recovered records torn logged) {response : Response}
    (stage : state.stage = .publishing response) :
    (state.publishStep response).Logs recovered records torn logged := by
  have keeps := logs.stage
  rw [stage] at keeps
  unfold Pipeline.publishStep
  dsimp only
  split
  · exact logs.moveTo (.counting response .processed) rfl logs.inHand keeps
      (by simp [secured, stage])
  · exact logs.moveTo (.publishing response) rfl logs.inHand keeps (by simp [secured, stage])

/-- With the last store the command in hand joins those that are handled. -/
theorem Logs.count (logs : state.Logs recovered records torn logged)
    (flows : state.Flows main commands answers) {response : Response} {store : HeaderStore}
    (stage : state.stage = .counting response store) (args : LoopArgs) (choice : EngineChoice) :
    ∃ logged, (state.countStep response store args choice).Logs recovered records torn logged := by
  have agrees := flows.agrees
  have keeps := logs.stage
  rw [stage] at agrees keeps
  obtain ⟨⟨command, point, _⟩, _, _⟩ := agrees
  unfold Pipeline.countStep
  dsimp only
  split
  · rename_i following _
    exact ⟨logged, logs.moveTo (.counting response following) rfl logs.inHand keeps
      (by simp [secured, stage])⟩
  · obtain ⟨_, processed, popping⟩ :=
      flows.carries.handled point args.idleExitMs choice.idleFor
    rw [point] at keeps
    obtain ⟨rfl, rfl⟩ := keeps
    refine ⟨[], logs.isOpen, logs.file, logs.valid, logs.nextOrdinal, ?_, List.nil_prefix,
      logs.short, rfl, ?_⟩
    · rw [logs.decoded, processed, List.append_nil, ← List.append_assoc]
      rfl
    · intro durable some
      have secured := logs.synced durable
      simp only [Pipeline.secured, stage, point, processed, MainStage.pastJournal, if_true,
        Bool.false_eq_true, if_false, List.append_nil, EnginePoint.inFlight] at secured some ⊢
      exact secured some

theorem Logs.finish (logs : state.Logs recovered records torn logged)
    (stage : state.stage = .leaving) (args : LoopArgs) (syncFailure : Option String) :
    (state.finishStep args syncFailure).Logs recovered records torn logged := by
  have same : state.secured = state.input.processed := by simp [secured, stage]
  unfold Pipeline.finishStep
  split
  · cases syncFailure with
    | some strerror =>
        exact logs.moveTo .storingDone rfl logs.inHand trivial
          (by rw [same]; exact List.append_nil _)
    | none =>
        refine { logs with stage := trivial, synced := fun _ _ => ?_ }
        have length := logs.length_file
        simp only [Pipeline.secured, MainStage.pastJournal, Bool.false_eq_true, if_false,
          List.append_nil]
        exact Nat.le_trans (Nat.mul_le_mul_left _ (Nat.le_add_right _ _)) length
  · exact logs.moveTo .storingDone rfl logs.inHand trivial (by rw [same]; exact List.append_nil _)

theorem Logs.engine (logs : state.Logs recovered records torn logged)
    (flows : state.Flows main commands answers) (args : LoopArgs) (choice : EngineChoice) :
    ∃ records torn logged, (state.engineStep args choice).Logs recovered records torn logged := by
  unfold Pipeline.engineStep
  split
  · rename_i stage
    exact ⟨_, _, _, logs.loop flows stage args choice⟩
  · rename_i stage
    exact logs.write flows stage choice.write
  · rename_i stage
    exact ⟨_, _, _, logs.sync flows stage choice.syncFailure⟩
  · rename_i stage
    exact ⟨_, _, _, logs.apply flows stage⟩
  · rename_i stage
    exact ⟨_, _, _, logs.publish stage⟩
  · rename_i stage
    obtain ⟨logged, counted⟩ := logs.count flows stage args choice
    exact ⟨_, _, _, counted⟩
  · rename_i stage
    exact ⟨_, _, _, logs.finish stage args choice.syncFailure⟩
  · rename_i stage
    exact ⟨_, _, _, logs.moveTo .exited rfl logs.inHand trivial (by simp [secured, stage])⟩
  · exact ⟨_, _, _, logs⟩
  · exact ⟨_, _, _, logs⟩

theorem Logs.step (logs : state.Logs recovered records torn logged)
    (flows : state.Flows main commands answers) (args : LoopArgs) (event : PipelineEvent) :
    ∃ records torn logged, (state.step args event).Logs recovered records torn logged := by
  cases event with
  | feed =>
      obtain ⟨_, processed, point⟩ := flows.carries.feedStep
      have keeps := logs.stage
      rw [← point] at keeps
      refine ⟨_, _, _, logs.moveTo state.stage processed ?_ keeps ?_⟩
      · rw [point]
        exact logs.inHand
      · rw [processed, point]
        rfl
  | engine choice =>
      simp only [Pipeline.step]
      split
      · exact logs.engine flows args choice
      · exact ⟨_, _, _, logs⟩
  | kill => exact ⟨_, _, _, { logs with synced := logs.synced }⟩
  | viewer headFirst => exact ⟨_, _, _, { logs with synced := logs.synced }⟩

/-! ### Whole runs -/

/-- The durability of the journal is settled when it is opened. -/
theorem step_durability (args : LoopArgs)
    (state : Pipeline orderCapacity tradeCapacity reportCapacity) (event : PipelineEvent) :
    (state.step args event).journal.durability = state.journal.durability := by
  cases event with
  | engine choice =>
      simp only [Pipeline.step]
      split
      · unfold Pipeline.engineStep
        split
        · unfold Pipeline.loopStep
          split <;> rfl
        · unfold Pipeline.writeStep
          split
          · rfl
          · rfl
          · dsimp only
            split
            · rfl
            · split <;> rfl
        · unfold Pipeline.syncStep
          split <;> rfl
        · unfold Pipeline.applyStep
          split <;> rfl
        · rfl
        · unfold Pipeline.countStep
          dsimp only
          split <;> rfl
        · unfold Pipeline.finishStep
          split
          · split <;> rfl
          · rfl
        all_goals rfl
      · rfl
  | feed => rfl
  | kill => rfl
  | viewer headFirst => rfl

theorem run_durability (args : LoopArgs)
    (state : Pipeline orderCapacity tradeCapacity reportCapacity) (events : List PipelineEvent) :
    (Schedule.run (step args) state events).journal.durability = state.journal.durability :=
  Schedule.run_invariant
    (P := fun next : Pipeline orderCapacity tradeCapacity reportCapacity =>
      next.journal.durability = state.journal.durability)
    (fun next event same => (step_durability args next event).trans same) rfl events

theorem exists_logs (tracks : main.journal.Tracks main.file records)
    (decoded : records.map decodeCommand = recovered) (consistent : main.engine.Consistent)
    (args : LoopArgs) (commands : List Command)
    (region : Region orderCapacity tradeCapacity reportCapacity) (events : List PipelineEvent) :
    ∃ answers records torn logged,
      Flows main commands answers (Schedule.run (step args) (initial main commands region) events) ∧
      Logs recovered records torn logged
        (Schedule.run (step args) (initial main commands region) events) := by
  refine Schedule.run_invariant (P := fun state => ∃ answers records torn logged,
    Flows main commands answers state ∧ Logs recovered records torn logged state) ?_ ?_ events
  · rintro state event ⟨answers, records, torn, logged, flows, logs⟩
    obtain ⟨answers', flows'⟩ := flows.step args event
    obtain ⟨records', torn', logged', logs'⟩ := logs.step flows args event
    exact ⟨answers', records', torn', logged', flows', logs'⟩
  · exact ⟨[], records, [], [], flows_initial consistent commands region,
      logs_initial tracks decoded commands region⟩

/-- What was pushed answers commands whose records the process has made sure of. -/
theorem Flows.pushed_prefix (flows : state.Flows main commands answers) :
    ∃ answered, main.engine.responses state.secured = .ok answered ∧
      state.output.reportQueue.pushed <+: answered.map Response.report ∧
      state.output.tradeQueue.pushed <+: answered.flatMap Response.outTrades := by
  obtain ⟨answered, ran, front⟩ : ∃ answered, main.engine.responses state.secured = .ok answered ∧
      answers ++ state.stage.response?.toList <+: answered := by
    have agrees := flows.agrees
    cases stage : state.stage with
    | applying command =>
        rw [stage] at agrees
        obtain ⟨response, applied, _⟩ := flows.consistent.apply command []
        refine ⟨answers ++ [response], ?_, by simp⟩
        rw [secured, stage, agrees.1]
        exact MatchingEngine.responses_concat flows.handled applied
    | publishing response =>
        rw [stage] at agrees
        obtain ⟨⟨command, point, applied⟩, _⟩ := agrees
        refine ⟨answers ++ [response], ?_, List.prefix_rfl⟩
        rw [secured, stage, point]
        exact MatchingEngine.responses_concat flows.handled applied
    | counting response store =>
        rw [stage] at agrees
        obtain ⟨⟨command, point, applied⟩, _⟩ := agrees
        refine ⟨answers ++ [response], ?_, List.prefix_rfl⟩
        rw [secured, stage, point]
        exact MatchingEngine.responses_concat flows.handled applied
    | _ =>
        refine ⟨answers, ?_, by simp⟩
        rw [secured, stage]
        exact (congrArg _ (List.append_nil _)).trans flows.handled
  have reports := flows.output.reports.sent
  have trades := flows.output.trades.sent
  obtain ⟨later, rfl⟩ := front
  refine ⟨_, ran, ?_, ?_⟩
  · rw [List.map_append, ← reports, List.append_assoc]
    exact List.prefix_append _ _
  · rw [List.flatMap_append, ← trades, List.append_assoc]
    exact List.prefix_append _ _

end Pipeline

end Lob
