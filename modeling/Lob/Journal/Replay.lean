import Lob.Journal.Content
import Lob.MatchingEngine.Counters

/-!
# Replaying a journal

Replay carries out the commands of the valid records of a file, in order, on the engine
it is given. `appliedCommands` names these commands. The engine never looks at the
sequence that a client put into an order, the one field that the journal drops, so a
replayed command does what the original did.
-/

namespace Lob

/-! ### Commands as the journal keeps them -/

theorem apply_journaled (engine : MatchingEngine) (command : Command) (outTrades : List Trade) :
    engine.apply (Journal.journaled command) outTrades = engine.apply command outTrades := by
  cases command <;> rfl

theorem responses_journaled (engine : MatchingEngine) (commands : List Command) :
    engine.responses (commands.map Journal.journaled) = engine.responses commands := by
  induction commands generalizing engine with
  | nil => rfl
  | cons command commands ih =>
      simp only [List.map_cons, MatchingEngine.responses, apply_journaled, ih]

theorem runAll_journaled (engine : MatchingEngine) (commands : List Command) :
    engine.runAll (commands.map Journal.journaled) = engine.runAll commands := by
  induction commands generalizing engine with
  | nil => rfl
  | cons command commands ih =>
      simp only [List.map_cons, MatchingEngine.runAll, apply_journaled, ih]

namespace Journal

variable {reads : List ReadOutcome} {records : List (List UInt8)}

/-! ### The commands of a file -/

/-- The loop body that only notes the command of a record. -/
def noteCommand (_ : UInt64) (bytes : List UInt8) (commands : List Command) :
    Except Fault (List Command) := .ok (commands ++ [decodeCommand bytes])

/-- The commands that replay takes from a file. -/
def appliedCommands (content : List UInt8) (reads : List ReadOutcome) : List Command :=
  match readFile noteCommand content reads [] with
  | .ok (_, commands) => commands
  | .error _ => []

theorem foldRecords_noteCommand (first : UInt64) (records : List (List UInt8))
    (commands : List Command) :
    foldRecords noteCommand first records commands =
      .ok (commands ++ records.map decodeCommand) := by
  induction records generalizing first commands with
  | nil => simp [foldRecords]
  | cons record records ih =>
      simp only [foldRecords, noteCommand, bind, Except.bind]
      rw [ih]
      simp

/-- The commands of a file are those of its leading valid records. -/
theorem appliedCommands_of_leading {tail : List UInt8} (valid : ValidFrom 1 records)
    (stops : Stops tail (UInt64.ofNat records.length + 1)) (calm : NoReadFailure reads) :
    appliedCommands (records.flatten ++ tail) reads = records.map decodeCommand := by
  rw [appliedCommands,
    readFile_of_leading valid stops (foldRecords_noteCommand 1 records []) calm]
  rfl

theorem appliedCommands_of_valid (valid : ValidFrom 1 records) (calm : NoReadFailure reads) :
    appliedCommands records.flatten reads = records.map decodeCommand := by
  have applied := appliedCommands_of_leading valid (.inl rfl : Stops [] _) calm
  rwa [List.append_nil] at applied

/-! ### Replay -/

/-- The body of the replay loop over some records: their commands, and the last ordinal. -/
theorem foldRecords_replayRecord {state : ReplayState} (consistent : state.engine.Consistent)
    (first : UInt64) (records : List (List UInt8)) :
    ∃ final, foldRecords replayRecord first records state = .ok final ∧
      state.engine.runAll (records.map decodeCommand) = .ok final.engine ∧
      (state.lastOrdinal + 1 = first →
        final.lastOrdinal + 1 = first + UInt64.ofNat records.length) := by
  induction records generalizing first state with
  | nil => exact ⟨state, rfl, rfl, by simp⟩
  | cons record records ih =>
      obtain ⟨response, applied, next⟩ := consistent.apply (decodeCommand record) []
      have step : ∃ state', replayRecord first record state = .ok state' ∧
          state'.engine = response.engine ∧ state'.lastOrdinal = first := by
        simp only [replayRecord, applied, bind, Except.bind, pure, Except.pure]
        exact ⟨_, rfl, rfl, rfl⟩
      obtain ⟨state', body, sameEngine, ordinal⟩ := step
      obtain ⟨final, rest, reached, last⟩ := ih (sameEngine ▸ next) (first + 1)
      refine ⟨final, ?_, ?_, fun _ => ?_⟩
      · simp only [foldRecords, body, bind, Except.bind, rest]
      · simp only [List.map_cons, MatchingEngine.runAll, applied, bind, Except.bind]
        rw [← sameEngine, reached]
      · rw [last (by rw [ordinal]), List.length_cons, add_one_add_ofNat]

/-- Whatever the file holds, the engine after a replay is the one that has carried out the
commands of the file. -/
theorem runAll_of_replay {content : List UInt8} (calm : NoReadFailure reads)
    {engine final : MatchingEngine} (consistent : engine.Consistent) {result : JournalReplayResult}
    (replayed : EventJournal.replay (some content) none reads engine = .ok (result, final)) :
    engine.runAll (appliedCommands content reads) = .ok final := by
  obtain ⟨records, tail, rfl, valid, stops⟩ := exists_leading content 1
  rw [UInt64.add_comm] at stops
  have start : (ReplayState.mk engine 0 0 0 0 0 0).engine.Consistent := consistent
  obtain ⟨state, body, reached, _⟩ := foldRecords_replayRecord start 1 records
  rw [appliedCommands_of_leading valid stops calm, reached]
  simp only [EventJournal.replay, readFile_of_leading valid stops body calm, bind, Except.bind,
    pure, Except.pure] at replayed
  rw [(Prod.mk.inj (Except.ok.inj replayed)).2]

/-- Replay of a file of valid records. -/
theorem replay_of_valid (valid : ValidFrom 1 records) (calm : NoReadFailure reads)
    {engine : MatchingEngine} (consistent : engine.Consistent) :
    ∃ result final, EventJournal.replay (some records.flatten) none reads engine =
        .ok (result, final) ∧ result.ok = true ∧
      result.records = UInt64.ofNat records.length ∧
      result.lastOrdinal = UInt64.ofNat records.length ∧
      engine.runAll (records.map decodeCommand) = .ok final := by
  have start : (ReplayState.mk engine 0 0 0 0 0 0).engine.Consistent := consistent
  obtain ⟨final, body, reached, last⟩ := foldRecords_replayRecord start 1 records
  refine ⟨replayResult { ok := true, records := UInt64.ofNat records.length } final, final.engine,
    ?_, rfl, rfl, ?_, reached⟩
  · simp only [EventJournal.replay, readFile_of_valid valid body calm, bind, Except.bind, pure,
      Except.pure]
  · have ordinal := last rfl
    rw [UInt64.add_comm 1] at ordinal
    exact (UInt64.add_left_inj 1).mp ordinal

/-- Replay accepts a file only if it consists of valid records. -/
theorem valid_of_replay {content : List UInt8} {engine final : MatchingEngine}
    {result : JournalReplayResult}
    (replayed : EventJournal.replay (some content) none reads engine = .ok (result, final))
    (accepted : result.ok = true) :
    ∃ records, content = records.flatten ∧ ValidFrom 1 records := by
  simp only [EventJournal.replay, bind, Except.bind, pure, Except.pure] at replayed
  split at replayed
  · contradiction
  rename_i pair read
  obtain ⟨scan, state⟩ := pair
  obtain ⟨rfl, _⟩ := Prod.mk.inj (Except.ok.inj replayed)
  obtain ⟨records, same, valid, _, _⟩ := valid_of_readFile read accepted
  exact ⟨records, same, valid⟩

end Journal

end Lob
