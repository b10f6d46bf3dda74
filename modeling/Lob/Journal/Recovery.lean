import Lob.Journal.Append

/-!
# Sessions of the engine process

`matching_engine_main` as far as its journal is concerned. A session opens the journal,
then appends each command and applies it. Started with `--recover`, it replays the file
into its fresh engine first and goes on appending; otherwise it truncates the file.

If no system call fails, every session starts from the engine that one uninterrupted run
over all earlier commands would have reached. Between sessions only the file is kept, so
the induction over the sessions carries a fact about the file: its records decode to the
commands so far.
-/

namespace Lob

variable {records : List (List UInt8)} {session : Session}

open Journal

/-! ### The process -/

/-- The variables of `main` that journaling concerns, and the bytes of the journal file. -/
structure EngineProcess where
  journal : EventJournal
  file : List UInt8
  engine : MatchingEngine
  journalFailed : Bool := false

/-- The body of the main loop for one popped command: append it, then apply it. -/
def EngineProcess.handle (process : EngineProcess) (command : Command) (calls : AppendCalls) :
    Except Fault EngineProcess :=
  let result := process.journal.append process.file command calls
  if result.ok then do
    let response ← process.engine.apply command []
    return { process with
      journal := result.journal, file := result.file, engine := response.engine }
  else
    return { process with journal := result.journal, file := result.file, journalFailed := true }

/-- The main loop over the commands of a session; a failed append ends it. -/
def EngineProcess.handleAll (process : EngineProcess) :
    List (Command × AppendCalls) → Except Fault EngineProcess
  | [] => .ok process
  | (command, calls) :: rest => do
      let process ← process.handle command calls
      if process.journalFailed then return process else handleAll process rest

/-- The arguments, the commands and the system calls of one session. -/
structure Session where
  syncJournal : Bool := false
  replayOpenFailure : Option String := none
  replayReads : List ReadOutcome := []
  opening : OpenCalls := {}
  commands : List (Command × AppendCalls) := []
  finalSyncFailure : Option String := none

def Session.durability (session : Session) : JournalDurability :=
  if session.syncJournal then .fdatasyncEachRecord else .buffered

/-- What `main` holds when its loop starts. -/
structure StartUp where
  replayResult : JournalReplayResult
  process : EngineProcess

/-- The part of `main` that opens the journal; `none` is an exit with status 1. -/
def Session.openProcess (session : Session) (recover : Bool) (file : Option (List UInt8))
    (replayResult : JournalReplayResult) (engine : MatchingEngine) : Option StartUp :=
  let mode := if recover then JournalOpenMode.append else .truncate
  match ({} : EventJournal).openJournal file mode session.durability session.opening with
  | (journal, some file, true) => some ⟨replayResult, { journal, file, engine }⟩
  | _ => none

/-- `main` before its loop. -/
def Session.start (session : Session) (limits : RiskLimits) (recover : Bool)
    (file : Option (List UInt8)) : Except Fault (Option StartUp) :=
  if recover then do
    let (result, engine) ←
      EventJournal.replay file session.replayOpenFailure session.replayReads (.fresh limits)
    return if result.ok then session.openProcess recover file result engine else none
  else return session.openProcess recover file {} (.fresh limits)

/-- `main` after its loop: a buffered journal is synced once. -/
def Session.finish (session : Session) (process : EngineProcess) : EngineProcess :=
  if process.journal.isOpen && !session.syncJournal then
    let (journal, synced) := process.journal.sync session.finalSyncFailure
    { process with journal, journalFailed := process.journalFailed || !synced }
  else process

/-- A session from its start to its end. -/
structure SessionRun where
  start : StartUp
  final : EngineProcess

/-- One session after another on the same file. All but the first recover; a session that
cannot start is the last. -/
def runSessions (limits : RiskLimits) :
    Bool → Option (List UInt8) → List Session → Except Fault (List SessionRun)
  | _, _, [] => .ok []
  | recover, file, session :: sessions => do
      match ← session.start limits recover file with
      | none => return []
      | some start => do
          let final := session.finish (← start.process.handleAll session.commands)
          let later ← runSessions limits true (some final.file) sessions
          return ⟨start, final⟩ :: later

/-! ### Undisturbed sessions -/

/-- Writes come in pieces of any size but the last byte arrives, and so does the sync. -/
structure AppendCalls.Undisturbed (calls : AppendCalls) : Prop where
  writes : ∀ outcome ∈ calls.writes, outcome = .interrupted ∨ ∃ count, outcome = .wrote (count + 1)
  sync : calls.syncFailure = none

/-- No call of the session fails. -/
structure Session.Undisturbed (session : Session) : Prop where
  replayOpen : session.replayOpenFailure = none
  replayReads : NoReadFailure session.replayReads
  scanOpen : session.opening.scanOpenFailure = none
  scanReads : NoReadFailure session.opening.reads
  openFile : session.opening.openFailure = none
  appends : ∀ call ∈ session.commands, call.2.Undisturbed
  finalSync : session.finalSyncFailure = none

theorem AppendCalls.Undisturbed.never_fails {calls : AppendCalls}
    (undisturbed : calls.Undisturbed) : takenBeforeFailure calls.writes = none :=
  NoWriteFailure.taken_eq_none undisturbed.writes

theorem AppendCalls.Undisturbed.succeeds {calls : AppendCalls} (undisturbed : calls.Undisturbed)
    (durability : JournalDurability) : calls.succeeds durability = true := by
  simp [AppendCalls.succeeds, writeAll_of_taken_none (Nat.zero_le _) undisturbed.never_fails,
    undisturbed.sync]

/-- The commands of a session without their system calls. -/
def Session.commandList (session : Session) : List Command := session.commands.map Prod.fst

/-- The loop of an undisturbed session journals and applies all its commands. -/
theorem EngineProcess.handleAll_undisturbed {process : EngineProcess}
    (tracks : process.journal.Tracks process.file records) (consistent : process.engine.Consistent)
    (running : process.journalFailed = false) {commands : List (Command × AppendCalls)}
    (undisturbed : ∀ call ∈ commands, call.2.Undisturbed) :
    ∃ final added, process.handleAll commands = .ok final ∧ final.journalFailed = false ∧
      final.journal.Tracks final.file (records ++ added) ∧
      added.map decodeCommand = (commands.map Prod.fst).map journaled ∧
      process.engine.runAll (commands.map Prod.fst) = .ok final.engine := by
  induction commands generalizing process records with
  | nil => exact ⟨process, [], rfl, running, by rwa [List.append_nil], rfl, rfl⟩
  | cons call commands ih =>
      obtain ⟨command, calls⟩ := call
      have succeeds := (undisturbed _ List.mem_cons_self).succeeds process.journal.durability
      have ok : (process.journal.append process.file command calls).ok = true := by
        rw [(EventJournal.append_appends tracks.isOpen process.file command calls).ok]
        exact succeeds
      have clean : calls.clean process.journal.durability = true := by
        rw [AppendCalls.clean, succeeds, Bool.true_or]
      obtain ⟨first, tracks', decoded⟩ := tracks.append command clean
      obtain ⟨response, applied, next⟩ := consistent.apply command []
      let process' : EngineProcess :=
        { process with
          journal := (process.journal.append process.file command calls).journal
          file := (process.journal.append process.file command calls).file
          engine := response.engine }
      have step : process.handle command calls = .ok process' := by
        simp only [handle, ok, if_true, applied, bind, Except.bind, pure, Except.pure, process']
      have running' : process'.journalFailed = false := running
      obtain ⟨final, later, reached, finished, tracked, rest, run⟩ := ih
        (show process'.journal.Tracks process'.file _ from tracks') next running'
        (fun call member => undisturbed call (List.mem_cons_of_mem _ member))
      refine ⟨final, first ++ later, ?_, finished, ?_, ?_, ?_⟩
      · simp only [handleAll, step, bind, Except.bind, running', Bool.false_eq_true, if_false]
        exact reached
      · rw [← List.append_assoc]
        exact tracked
      · rw [List.map_append, decoded, rest, ok]
        rfl
      · simp only [List.map_cons, MatchingEngine.runAll, applied, bind, Except.bind]
        exact run

/-- The final sync touches neither the file nor the engine. -/
theorem Session.Undisturbed.finish (undisturbed : session.Undisturbed) {process : EngineProcess}
    (running : process.journalFailed = false) :
    session.finish process = process := by
  unfold Session.finish
  split
  · rename_i unsynced
    rw [Bool.and_eq_true] at unsynced
    simp only [EventJournal.sync, unsynced.1, if_true, undisturbed.finalSync, running,
      Bool.not_true, Bool.or_false]
    cases process
    simp_all
  · rfl

/-! ### Recovery -/

/-- The file holds the journaled commands: nothing yet before the first session. -/
def Holds (recover : Bool) (file : Option (List UInt8)) (commands : List Command) : Prop :=
  if recover then
    ∃ records, file = some records.flatten ∧ ValidFrom 1 records ∧
      records.map decodeCommand = commands.map journaled
  else commands = []

/-- How an undisturbed session starts after the given commands. -/
structure StartUp.Recovered (start : StartUp) (limits : RiskLimits) (recover : Bool)
    (commands : List Command) : Prop where
  replayed : recover = true → start.replayResult.ok = true ∧
    start.replayResult.records.toNat = commands.length ∧
    start.replayResult.lastOrdinal.toNat = commands.length
  nextOrdinal : start.process.journal.nextOrdinal.toNat = commands.length + 1
  engine : (MatchingEngine.fresh limits).runAll commands = .ok start.process.engine

/-- Opening a file of valid records to append finds them all. -/
theorem EventJournal.openJournal_append_of_valid (valid : ValidFrom 1 records)
    (durability : JournalDurability) {opening : OpenCalls}
    (scanOpen : opening.scanOpenFailure = none) (scanReads : NoReadFailure opening.reads)
    (openFile : opening.openFailure = none) :
    ∃ journal, ({} : EventJournal).openJournal (some records.flatten) .append durability opening =
        (journal, some records.flatten, true) ∧ journal.Tracks records.flatten records := by
  have scan : scanFile (some records.flatten) opening.scanOpenFailure opening.reads =
      { ok := true, records := UInt64.ofNat records.length } := by
    rw [scanOpen, scanFile, readFile_of_valid valid (foldRecords_skipRecord 1 records) scanReads]
  simp only [openJournal, scan, if_true, EventJournal.openFile, openFile]
  exact ⟨_, rfl, rfl, rfl, valid, UInt64.add_comm _ _⟩

/-- A session that recovers a file of valid records comes up. -/
theorem Session.Undisturbed.start_recover (undisturbed : session.Undisturbed) (limits : RiskLimits)
    (valid : ValidFrom 1 records) :
    ∃ result engine journal, session.start limits true (some records.flatten) =
        .ok (some ⟨result, { journal, file := records.flatten, engine }⟩) ∧
      result.ok = true ∧ result.records = UInt64.ofNat records.length ∧
      result.lastOrdinal = UInt64.ofNat records.length ∧
      (MatchingEngine.fresh limits).runAll (records.map decodeCommand) = .ok engine ∧
      journal.Tracks records.flatten records := by
  obtain ⟨result, engine, replayed, ok, read, last, run⟩ :=
    replay_of_valid valid undisturbed.replayReads (consistent_fresh limits)
  obtain ⟨journal, opened, tracks⟩ := EventJournal.openJournal_append_of_valid valid
    session.durability undisturbed.scanOpen undisturbed.scanReads undisturbed.openFile
  refine ⟨result, engine, journal, ?_, ok, read, last, run, tracks⟩
  simp only [Session.start, Session.openProcess, undisturbed.replayOpen, replayed, ok, opened,
    if_true, bind, Except.bind, pure, Except.pure]

theorem Session.Undisturbed.start (undisturbed : session.Undisturbed) (limits : RiskLimits)
    {recover : Bool} {file : Option (List UInt8)} {commands : List Command}
    (holds : Holds recover file commands) (bounded : commands.length < 2 ^ 58) :
    ∃ start records, session.start limits recover file = .ok (some start) ∧
      start.Recovered limits recover commands ∧ start.process.journalFailed = false ∧
      start.process.journal.Tracks start.process.file records ∧
      records.map decodeCommand = commands.map journaled := by
  cases recover with
  | false =>
      obtain rfl : commands = [] := holds
      let journal : EventJournal := { isOpen := true, durability := session.durability }
      refine ⟨⟨{}, { journal, file := [], engine := .fresh limits }⟩, [], ?_,
        ⟨fun impossible => ?_, rfl, rfl⟩, rfl, ⟨rfl, rfl, trivial, rfl⟩, rfl⟩
      · simp only [Session.start, Session.openProcess, EventJournal.openJournal,
          EventJournal.openFile, undisturbed.openFile, Bool.false_eq_true, if_false]
        rfl
      · exact absurd impossible Bool.false_ne_true
  | true =>
      obtain ⟨records, rfl, valid, decoded⟩ := holds
      have count : records.length = commands.length := by
        rw [← List.length_map, decoded, List.length_map]
      have exactCount : (UInt64.ofNat records.length).toNat = commands.length := by
        rw [count, UInt64.toNat_ofNat', Nat.mod_eq_of_lt (by omega)]
      obtain ⟨result, engine, journal, started, ok, read, last, run, tracks⟩ :=
        undisturbed.start_recover limits valid
      refine ⟨⟨result, { journal, file := records.flatten, engine }⟩, records, started,
        ⟨fun _ => ⟨ok, ?_, ?_⟩, ?_, ?_⟩, rfl, tracks, decoded⟩
      · rw [read, exactCount]
      · rw [last, exactCount]
      · rw [tracks.nextOrdinal, UInt64.toNat_add, exactCount, Nat.mod_eq_of_lt]
        · exact Nat.add_comm _ _
        · have one : UInt64.toNat 1 = 1 := rfl
          omega
      · rw [← runAll_journaled, ← decoded]
        exact run

/-- Session by session: how it starts, and the engine it ends with. -/
def Recovers (limits : RiskLimits) :
    Bool → List Command → List Session → List SessionRun → Prop
  | _, _, [], runs => runs = []
  | _, _, _ :: _, [] => False
  | recover, commands, session :: sessions, run :: runs =>
      run.start.Recovered limits recover commands ∧
      run.final.journalFailed = false ∧
      (MatchingEngine.fresh limits).runAll (commands ++ session.commandList) =
        .ok run.final.engine ∧
      Recovers limits true (commands ++ session.commandList) sessions runs

theorem runSessions_recovers_from (limits : RiskLimits) {sessions : List Session}
    (undisturbed : ∀ session ∈ sessions, session.Undisturbed) {recover : Bool}
    {file : Option (List UInt8)} {commands : List Command} (holds : Holds recover file commands)
    (bounded : (commands ++ sessions.flatMap Session.commandList).length < 2 ^ 58) :
    ∃ runs, runSessions limits recover file sessions = .ok runs ∧
      Recovers limits recover commands sessions runs := by
  induction sessions generalizing recover file commands with
  | nil => exact ⟨[], rfl, rfl⟩
  | cons session sessions ih =>
      have calm := undisturbed session List.mem_cons_self
      rw [List.flatMap_cons, ← List.append_assoc] at bounded
      obtain ⟨start, records, started, recovered, running, tracks, decoded⟩ :=
        calm.start limits holds (by
          simp only [List.length_append] at bounded
          omega)
      obtain ⟨engine, reached, consistent⟩ := (consistent_fresh limits).runAll commands
      obtain rfl := Except.ok.inj (recovered.engine.symm.trans reached)
      obtain ⟨final, added, handled, finished, tracked, journaledAll, run⟩ :=
        EngineProcess.handleAll_undisturbed tracks consistent running calm.appends
      have holds' : Holds true (some final.file) (commands ++ session.commandList) := by
        refine ⟨records ++ added, by rw [tracked.file], tracked.valid, ?_⟩
        rw [List.map_append, List.map_append, decoded, journaledAll]
        rfl
      obtain ⟨runs, later, rest⟩ := ih
        (fun session member => undisturbed session (List.mem_cons_of_mem _ member)) holds' bounded
      refine ⟨⟨start, final⟩ :: runs, ?_, recovered, finished, ?_, rest⟩
      · simp only [runSessions, started, handled, calm.finish finished, later, bind,
          Except.bind, pure, Except.pure]
      · rw [MatchingEngine.runAll_append recovered.engine]
        exact run

/-- Recovery equals uninterrupted execution: sessions whose system calls all succeed start
with the engine that one run over all earlier commands reaches, whatever was on disk before
the first of them. -/
theorem runSessions_recovers (limits : RiskLimits) (file : Option (List UInt8))
    {sessions : List Session} (undisturbed : ∀ session ∈ sessions, session.Undisturbed)
    (bounded : (sessions.flatMap Session.commandList).length < 2 ^ 58) :
    ∃ runs, runSessions limits false file sessions = .ok runs ∧
      Recovers limits false [] sessions runs :=
  runSessions_recovers_from limits undisturbed rfl bounded

/-- Three sessions: an order written in two pieces, a cancel of an unknown order and a sell
order with a sequence of its own, then a session without commands. -/
theorem runSessions_recovers_three :
    let sessions : List Session :=
      [{ commands := [(.newOrder { id := 1, side := .buy, price := 100, quantity := 10 },
          { writes := [.wrote 20, .interrupted, .wrote 28] }), (.cancel 9, {})] },
        { syncJournal := true,
          replayReads := [.got 7, .interrupted],
          commands := [(.newOrder
            { id := 2, sequence := 77, side := .sell, price := 100, quantity := 4 }, {})] },
        {}]
    ∃ runs, runSessions {} false (some [1, 2, 3]) sessions = .ok runs ∧
      Recovers {} false [] sessions runs := by
  refine runSessions_recovers {} _ ?_ (by decide)
  intro session member
  simp only [List.mem_cons, List.not_mem_nil, or_false] at member
  have calm : NoReadFailure [] := fun _ inNil => absurd inNil List.not_mem_nil
  have smooth : AppendCalls.Undisturbed {} := ⟨fun _ inNil => absurd inNil List.not_mem_nil, rfl⟩
  obtain rfl | rfl | rfl := member
  · refine ⟨rfl, calm, rfl, calm, rfl, ?_, rfl⟩
    rintro call (_ | ⟨_, _ | ⟨_, inNil⟩⟩)
    · refine ⟨?_, rfl⟩
      simp
    · exact smooth
    · contradiction
  · refine ⟨rfl, ?_, rfl, calm, rfl, ?_, rfl⟩
    · simp [NoReadFailure]
    · rintro call (_ | ⟨_, inNil⟩)
      · exact smooth
      · contradiction
  · exact ⟨rfl, calm, rfl, calm, rfl, fun _ inNil => absurd inNil List.not_mem_nil, rfl⟩

end Lob
