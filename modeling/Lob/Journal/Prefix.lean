import Lob.Journal.Replay
import Lob.Reference.Trades
import Mathlib.Order.Bounds.Basic

/-!
# The valid prefix of a journal file

Any byte string may stand in a journal file. `replay` and `scanFile` both find its
longest valid prefix: the records from the start that pass `validateRecord` with the
ordinals `1, 2, …`. Replay carries out exactly the commands of these records, and the
counters it reports all agree with their number. The two functions give the same verdict
on what follows the prefix, so a journal can be opened for appending exactly when replay
accepts it.
-/

namespace Lob

namespace Journal

variable {count : Nat}

/-! ### The longest valid prefix -/

/-- The bytes of the record at a position of the file. -/
def recordAt (content : List UInt8) (i : Nat) : List UInt8 :=
  (content.drop (kRecordSize * i)).take kRecordSize

/-- The file starts with `count` records that are valid for the ordinals from one on. -/
def LeadingValid (content : List UInt8) (count : Nat) : Prop :=
  kRecordSize * count ≤ content.length ∧
    ∀ i < count, validateRecord (recordAt content i) (UInt64.ofNat (i + 1)) = none

/-- The commands of the first `count` records. -/
def leadingCommands (content : List UInt8) (count : Nat) : List Command :=
  (List.range count).map (fun i => decodeCommand (recordAt content i))

section Records

variable {records : List (List UInt8)} {tail : List UInt8} {first : UInt64}

theorem recordAt_zero {record rest : List UInt8} (length : record.length = kRecordSize) :
    recordAt (record ++ rest) 0 = record := by
  rw [recordAt, Nat.mul_zero, List.drop_zero, List.take_left' length]

theorem recordAt_succ {record rest : List UInt8} (length : record.length = kRecordSize) (i : Nat) :
    recordAt (record ++ rest) (i + 1) = recordAt rest i := by
  rw [recordAt, recordAt, Nat.mul_succ, Nat.add_comm, ← List.drop_drop, List.drop_left' length]

/-- The records of a file are found at their positions. -/
theorem ValidFrom.map_recordAt (valid : ValidFrom first records) :
    (List.range records.length).map (recordAt (records.flatten ++ tail)) = records := by
  induction records generalizing first with
  | nil => rfl
  | cons record records ih =>
      obtain ⟨length, _, rest⟩ := valid
      rw [List.length_cons, List.range_succ_eq_map, List.map_cons, List.map_map, List.flatten_cons,
        List.append_assoc, recordAt_zero length]
      simp only [Function.comp_def, Nat.succ_eq_add_one, recordAt_succ length]
      rw [ih rest]

theorem ValidFrom.validateRecord_recordAt (valid : ValidFrom first records) (tail : List UInt8)
    {i : Nat} (inside : i < records.length) :
    validateRecord (recordAt (records.flatten ++ tail) i) (first + UInt64.ofNat i) = none := by
  induction records generalizing first i with
  | nil => exact absurd inside (Nat.not_lt_zero i)
  | cons record records ih =>
      obtain ⟨length, passes, rest⟩ := valid
      rw [List.flatten_cons, List.append_assoc]
      cases i with
      | zero => simpa [recordAt_zero length] using passes
      | succ i =>
          rw [recordAt_succ length, ← add_one_add_ofNat]
          exact ih rest (by simpa using inside)

theorem ValidFrom.leadingCommands_eq (valid : ValidFrom first records) :
    leadingCommands (records.flatten ++ tail) records.length = records.map decodeCommand := by
  rw [leadingCommands, ← Function.comp_def decodeCommand, ← List.map_map, valid.map_recordAt]

/-- The leading valid records up to where the loop stops are the longest valid prefix. -/
theorem isGreatest_leadingValid (valid : ValidFrom 1 records)
    (stops : Stops tail (UInt64.ofNat records.length + 1)) :
    IsGreatest {count | LeadingValid (records.flatten ++ tail) count} records.length := by
  constructor
  · refine ⟨by rw [List.length_append, valid.length_flatten]; omega, ?_⟩
    intro i inside
    have passes := valid.validateRecord_recordAt tail inside
    rwa [UInt64.add_comm, ← UInt64.ofNat_one, ← UInt64.ofNat_add] at passes
  · rintro count ⟨enough, passes⟩
    by_contra more
    have length := valid.length_flatten
    rw [List.length_append, length] at enough
    have next : kRecordSize * (records.length + 1) ≤ kRecordSize * count :=
      Nat.mul_le_mul_left _ (by omega)
    rw [Nat.mul_succ] at next
    have refused := passes records.length (by omega)
    rw [recordAt, ← length, List.drop_left] at refused
    have nonempty : tail ≠ [] := by
      rintro rfl
      simp only [kRecordSize, List.length_nil] at next enough
      omega
    refine stops.resolve_left nonempty ?_
    rw [stopError, if_neg nonempty, if_neg (by omega)]
    rwa [UInt64.ofNat_add] at refused

end Records

/-! ### The counters of a replay -/

/-- The counters of the loop after `count` records. -/
structure ReplayState.Tallies (state : ReplayState) (count : Nat) : Prop where
  consistent : state.engine.Consistent
  sequence : state.engine.sequence.toNat = count
  kinds : state.newOrders.toNat + state.cancels.toNat = count
  outcomes : state.accepted.toNat + state.rejected.toNat = count
  trades : state.trades = state.engine.tradeCount
  lastOrdinal : state.lastOrdinal.toNat = count

theorem tallies_start (limits : RiskLimits) :
    ({ engine := .fresh limits } : ReplayState).Tallies 0 :=
  ⟨consistent_fresh limits, rfl, rfl, rfl, show (0 : UInt64) = 1 - 1 by decide, rfl⟩

/-- One of two counters goes up. -/
theorem toNat_tally {a b : UInt64} (sum : a.toNat + b.toNat = count) (room : count + 1 < 2 ^ 64)
    (first : Bool) :
    (if first then a + 1 else a).toNat + (if first then b else b + 1).toNat = count + 1 := by
  cases first
  · have advance : (b + 1).toNat = b.toNat + 1 := Reference.toNat_sequence_add_one (by omega)
    simp only [Bool.false_eq_true, if_false, advance]
    omega
  · have advance : (a + 1).toNat = a.toNat + 1 := Reference.toNat_sequence_add_one (by omega)
    simp only [if_true, advance]
    omega

theorem ReplayState.Tallies.replayRecord {state : ReplayState} (tallies : state.Tallies count)
    (room : count + 1 < 2 ^ 64) {expected : UInt64} (ordinal : expected.toNat = count + 1)
    (bytes : List UInt8) :
    ∃ state', Journal.replayRecord expected bytes state = .ok state' ∧
      state'.Tallies (count + 1) := by
  obtain ⟨response, applied, consistent⟩ := tallies.consistent.apply (decodeCommand bytes) []
  unfold Journal.replayRecord
  rw [applied]
  refine ⟨_, rfl, consistent, ?_,
    toNat_tally tallies.kinds room (decide (bytes.getD 6 0 = kNewOrderRecord)),
    toNat_tally tallies.outcomes room response.report.accepted, ?_, ordinal⟩
  · dsimp only
    rw [(MatchingEngine.apply_counts applied).sequence,
      Reference.toNat_sequence_add_one (by rw [tallies.sequence]; omega), tallies.sequence]
  · dsimp only
    rw [tallies.consistent.apply_tradeCount applied, tallies.trades]

theorem ReplayState.Tallies.foldRecords {state final : ReplayState} (tallies : state.Tallies count)
    {records : List (List UInt8)} (room : count + records.length < 2 ^ 64)
    (body : Journal.foldRecords Journal.replayRecord (UInt64.ofNat (count + 1)) records state =
      .ok final) :
    final.Tallies (count + records.length) := by
  induction records generalizing state count with
  | nil =>
      obtain rfl := Except.ok.inj body
      exact tallies
  | cons record records ih =>
      rw [List.length_cons] at room ⊢
      have ordinal : (UInt64.ofNat (count + 1)).toNat = count + 1 :=
        UInt64.toNat_ofNat_of_lt' (show count + 1 < 2 ^ 64 by omega)
      obtain ⟨next, step, tallies'⟩ := tallies.replayRecord (by omega) ordinal record
      simp only [Journal.foldRecords, step, bind, Except.bind] at body
      rw [← UInt64.ofNat_one, ← UInt64.ofNat_add] at body
      have last := ih tallies' (by omega) body
      rwa [Nat.add_assoc, Nat.add_comm 1] at last

/-! ### Replay and scan of any file -/

/-- What a replay into `engine` reports about a file with `k` leading valid records. -/
structure PrefixReplayed (engine : MatchingEngine) (content : List UInt8) (k : Nat)
    (result : JournalReplayResult) (final : MatchingEngine) : Prop where
  applied : engine.runAll (leadingCommands content k) = .ok final
  ok : result.ok = true ↔ content.length = kRecordSize * k
  records : result.records.toNat = k
  lastOrdinal : result.lastOrdinal.toNat = k
  kinds : result.newOrders.toNat + result.cancels.toNat = k
  outcomes : result.accepted.toNat + result.rejected.toNat = k
  sequence : final.sequence.toNat = k
  trades : result.trades = final.tradeCount
  errorOffset : result.ok = false → result.errorOffset.toNat = kRecordSize * k

/-- A scan and a replay report the same about a file. -/
structure SameVerdict (scan : ScanResult) (result : JournalReplayResult) : Prop where
  ok : scan.ok = result.ok
  records : scan.records = result.records
  error : scan.error = result.error
  errorOffset : scan.errorOffset = result.errorOffset

theorem ScanResult.records_stopped (result : ScanResult) (error : Option String) :
    (result.stopped error).records = result.records := by
  cases error <;> rfl

theorem ScanResult.ok_stopped (records : UInt64) (error : Option String) :
    (({ records } : ScanResult).stopped error).ok = true ↔ error = none := by
  cases error <;> simp [ScanResult.stopped, ScanResult.fail]

theorem ScanResult.errorOffset_stopped {records : UInt64} {error : Option String}
    (failed : (({ records } : ScanResult).stopped error).ok = false) :
    (({ records } : ScanResult).stopped error).errorOffset = records * 48 := by
  cases error with
  | none => exact absurd failed (by simp [ScanResult.stopped])
  | some message => rfl

/-- The scan stops behind the leading valid records. -/
theorem scanFile_of_leading {records : List (List UInt8)} {tail : List UInt8}
    (valid : ValidFrom 1 records) (stops : Stops tail (UInt64.ofNat records.length + 1))
    {reads : List ReadOutcome} (calm : NoReadFailure reads) :
    scanFile (some (records.flatten ++ tail)) none reads =
      ({ records := UInt64.ofNat records.length } : ScanResult).stopped
        (stopError tail (UInt64.ofNat records.length + 1)) := by
  rw [scanFile, readFile_of_leading valid stops (foldRecords_skipRecord 1 records) calm]

theorem Stops.stopError_eq_none_iff {tail : List UInt8} {ordinal : UInt64}
    (stops : Stops tail ordinal) : stopError tail ordinal = none ↔ tail = [] :=
  ⟨fun none => stops.resolve_right (fun error => error none), fun empty => if_pos empty⟩

/-- Opening for appending succeeds when the scan does, if the file itself can be opened. -/
theorem openJournal_append_ok (journal : EventJournal) (file : Option (List UInt8))
    (durability : JournalDurability) (reads : List ReadOutcome) :
    (journal.openJournal file .append durability { reads }).2.2 =
      (scanFile file none reads).ok := by
  simp only [EventJournal.openJournal]
  cases accepted : (scanFile file none reads).ok with
  | false => rfl
  | true => rfl

theorem replay_of_leading {records : List (List UInt8)} {tail : List UInt8}
    (valid : ValidFrom 1 records) (stops : Stops tail (UInt64.ofNat records.length + 1))
    (limits : RiskLimits) (short : records.length < 2 ^ 64) :
    ∃ state : ReplayState, state.Tallies records.length ∧
      (MatchingEngine.fresh limits).runAll
        (leadingCommands (records.flatten ++ tail) records.length) = .ok state.engine ∧
      ∀ reads, NoReadFailure reads →
        EventJournal.replay (some (records.flatten ++ tail)) none reads (.fresh limits) =
          .ok (replayResult (({ records := UInt64.ofNat records.length } : ScanResult).stopped
            (stopError tail (UInt64.ofNat records.length + 1))) state, state.engine) := by
  have start : ({ engine := .fresh limits } : ReplayState).engine.Consistent :=
    consistent_fresh limits
  obtain ⟨final, body, reached, _⟩ := foldRecords_replayRecord start 1 records
  refine ⟨final, ?_, ?_, ?_⟩
  · have tallies := (tallies_start limits).foldRecords (by simpa using short) body
    rwa [Nat.zero_add] at tallies
  · rw [valid.leadingCommands_eq]
    exact reached
  · intro reads calm
    rw [EventJournal.replay, readFile_of_leading valid stops body calm]
    rfl

/-- Whatever bytes a file holds, replay carries out its longest valid prefix and nothing
else, and the scan agrees with it. A journal can be opened for appending exactly if
replay accepts its file or the file is missing. -/
theorem replay_longest_valid_prefix (limits : RiskLimits) (content : List UInt8)
    (short : content.length < 2 ^ 64) :
    (∃ k, IsGreatest {count | LeadingValid content count} k ∧
      ∃ result final, PrefixReplayed (.fresh limits) content k result final ∧
        (∀ reads, NoReadFailure reads →
          EventJournal.replay (some content) none reads (.fresh limits) = .ok (result, final)) ∧
        (∀ reads, NoReadFailure reads →
          SameVerdict (scanFile (some content) none reads) result ∧
          ∀ (journal : EventJournal) (durability : JournalDurability),
            (journal.openJournal (some content) .append durability { reads }).2.2 = result.ok)) ∧
    (∀ reads, (∃ result, EventJournal.replay none none reads (.fresh limits) =
        .ok (result, .fresh limits) ∧ result.ok = false) ∧
      ∀ (journal : EventJournal) (durability : JournalDurability),
        (journal.openJournal none .append durability { reads }).2.2 = true) := by
  refine ⟨?_, ?_⟩
  · obtain ⟨records, tail, rfl, valid, stops⟩ := exists_leading content 1
    rw [UInt64.add_comm] at stops
    have length := valid.length_flatten
    rw [List.length_append, length] at short
    have count : kRecordSize * records.length < 2 ^ 64 := by omega
    have few : records.length < 2 ^ 64 := by
      simp only [kRecordSize] at count
      omega
    have toNat : (UInt64.ofNat records.length).toNat = records.length :=
      UInt64.toNat_ofNat_of_lt' few
    obtain ⟨state, tallies, reached, replayed⟩ := replay_of_leading valid stops limits few
    refine ⟨records.length, isGreatest_leadingValid valid stops, _, _, ?_, replayed, ?_⟩
    · refine ⟨reached, ?_, ?_, tallies.lastOrdinal, tallies.kinds, tallies.outcomes,
        tallies.sequence, tallies.trades, ?_⟩
      · rw [replayResult, ScanResult.ok_stopped, stops.stopError_eq_none_iff, List.length_append,
          length, Nat.add_eq_left, List.length_eq_zero_iff]
      · rw [replayResult, ScanResult.records_stopped, toNat]
      · intro failed
        rw [replayResult, ScanResult.errorOffset_stopped failed, UInt64.toNat_mul, toNat,
          Nat.mul_comm]
        exact Nat.mod_eq_of_lt count
    · intro reads calm
      have scan := scanFile_of_leading valid stops calm
      refine ⟨by rw [scan]; exact ⟨rfl, rfl, rfl, rfl⟩, fun journal durability => ?_⟩
      rw [openJournal_append_ok, scan, replayResult]
  · intro reads
    exact ⟨⟨_, rfl, rfl⟩, fun journal durability => rfl⟩

/-- A file with one record and the first byte of another. -/
theorem replay_torn_file :
    ∃ k, IsGreatest {count | LeadingValid (encodeCommand 1 (.cancel 7) ++ [0x4C]) count} k ∧
      ∃ result final, PrefixReplayed (.fresh {}) (encodeCommand 1 (.cancel 7) ++ [0x4C]) k
        result final := by
  obtain ⟨⟨k, greatest, result, final, replayed, _⟩, _⟩ :=
    replay_longest_valid_prefix {} (encodeCommand 1 (.cancel 7) ++ [0x4C])
      (by simp [length_encodeCommand, kRecordSize])
  exact ⟨k, greatest, result, final, replayed⟩

end Journal

end Lob
