import Lob.Journal.Replay

/-!
# Appending to a journal

What one append does depends only on the outcomes of its own system calls: how many
bytes of the record reached the file, and whether the call reports success. These two
need not agree. A write that fails in the middle of a record leaves a torn record
behind, and a failed `fdatasync` leaves a complete one, while the caller is told that
the append failed.

Replay therefore gives back exactly the commands whose append reported success if and
only if every other append left no byte behind. In terms of the system calls: no write
fails in the middle of a record, and no sync fails behind a complete one. Necessity is a
matter of counting: a file that replay accepts has 48 bytes for each command.
-/

namespace Lob

open Journal

/-! ### The outcomes of one append -/

/-- The bytes of the record that reach the file. -/
def AppendCalls.written (calls : AppendCalls) : Nat :=
  (writeAll kRecordSize 0 calls.writes).written

/-- The append reports success. -/
def AppendCalls.succeeds (durability : JournalDurability) (calls : AppendCalls) : Bool :=
  (writeAll kRecordSize 0 calls.writes).error.isNone &&
    (decide (durability = .buffered) || calls.syncFailure.isNone)

/-- The append reports success or leaves nothing behind. -/
def AppendCalls.clean (durability : JournalDurability) (calls : AppendCalls) : Bool :=
  calls.succeeds durability || decide (calls.written = 0)

namespace Journal

variable {writes : List WriteOutcome}

/-- The bytes that the write calls of a script take before one of them fails or takes
none, where one does. -/
def takenBeforeFailure : List WriteOutcome → Option Nat
  | [] => none
  | .interrupted :: outcomes => takenBeforeFailure outcomes
  | .failed _ :: _ => some 0
  | .wrote 0 :: _ => some 0
  | .wrote (count + 1) :: outcomes => (takenBeforeFailure outcomes).map (count + 1 + ·)

theorem writeAll_of_size (size : Nat) (writes : List WriteOutcome) :
    writeAll size size writes = ⟨size, none⟩ := by
  cases writes with
  | nil => rfl
  | cons outcome writes =>
      unfold writeAll
      rw [if_neg (Nat.lt_irrefl size)]

/-- A script without a failure writes everything. -/
theorem writeAll_of_taken_none {size written : Nat} (within : written ≤ size)
    (never : takenBeforeFailure writes = none) :
    writeAll size written writes = ⟨size, none⟩ := by
  induction writes generalizing written with
  | nil => rfl
  | cons outcome writes ih =>
      rcases Nat.lt_or_eq_of_le within with more | rfl
      · unfold writeAll
        rw [if_pos more]
        cases outcome with
        | interrupted => exact ih within never
        | failed strerror => exact absurd never (Option.some_ne_none _)
        | wrote count =>
            cases count with
            | zero => exact absurd never (Option.some_ne_none _)
            | succ count =>
                dsimp only
                rw [if_neg (by omega)]
                exact ih (by omega) (Option.map_eq_none_iff.mp never)
      · exact writeAll_of_size written _

/-- Every write of the script takes a byte or is interrupted. -/
def NoWriteFailure (writes : List WriteOutcome) : Prop :=
  ∀ outcome ∈ writes, outcome = .interrupted ∨ ∃ count, outcome = .wrote (count + 1)

theorem NoWriteFailure.taken_eq_none (smooth : NoWriteFailure writes) :
    takenBeforeFailure writes = none := by
  induction writes with
  | nil => rfl
  | cons outcome writes ih =>
      have later := ih (fun other member => smooth other (List.mem_cons_of_mem _ member))
      obtain rfl | ⟨count, rfl⟩ := smooth outcome List.mem_cons_self
      · exact later
      · rw [takenBeforeFailure, later, Option.map_none]

/-- A failure matters when it comes before the last byte is taken. -/
theorem writeAll_of_taken_some {size written taken : Nat} (within : written ≤ size)
    (fails : takenBeforeFailure writes = some taken) :
    (writeAll size written writes).written = min size (written + taken) ∧
      ((writeAll size written writes).error = none ↔ size ≤ written + taken) := by
  induction writes generalizing written taken with
  | nil => exact absurd fails.symm (Option.some_ne_none _)
  | cons outcome writes ih =>
      rcases Nat.lt_or_eq_of_le within with more | rfl
      · unfold writeAll
        rw [if_pos more]
        cases outcome with
        | interrupted => exact ih within fails
        | failed strerror =>
            obtain rfl := Option.some.inj fails
            simp only [Nat.add_zero, reduceCtorEq, false_iff]
            omega
        | wrote count =>
            cases count with
            | zero =>
                obtain rfl := Option.some.inj fails
                simp only [Nat.zero_min, if_true, Nat.add_zero, reduceCtorEq, false_iff]
                omega
            | succ count =>
                obtain ⟨later, failsLater, rfl⟩ := Option.map_eq_some_iff.mp fails
                dsimp only
                rw [if_neg (by omega)]
                have reached : written + min (count + 1) (size - written) ≤ size := by omega
                obtain ⟨bytes, error⟩ := ih reached failsLater
                rw [bytes, error]
                omega
      · rw [writeAll_of_size]
        simp

theorem writeAll_written_of_ok {size : Nat} (ok : (writeAll size 0 writes).error = none) :
    (writeAll size 0 writes).written = size := by
  cases fails : takenBeforeFailure writes with
  | none => rw [writeAll_of_taken_none (Nat.zero_le _) fails]
  | some taken =>
      obtain ⟨bytes, error⟩ := writeAll_of_taken_some (Nat.zero_le size) fails
      rw [bytes]
      exact Nat.min_eq_left (error.mp ok)

/-- A write that reports an error stopped before the end. -/
theorem writeAll_written_of_error {size : Nat} {message : String}
    (failed : (writeAll size 0 writes).error = some message) :
    (writeAll size 0 writes).written < size := by
  cases fails : takenBeforeFailure writes with
  | none =>
      rw [writeAll_of_taken_none (Nat.zero_le _) fails] at failed
      exact absurd failed.symm (Option.some_ne_none _)
  | some taken =>
      obtain ⟨bytes, error⟩ := writeAll_of_taken_some (Nat.zero_le size) fails
      have short : ¬size ≤ 0 + taken := by
        rw [← error, failed]
        exact Option.some_ne_none _
      omega

end Journal

theorem AppendCalls.written_of_succeeds {durability : JournalDurability} {calls : AppendCalls}
    (ok : calls.succeeds durability = true) : calls.written = kRecordSize := by
  rw [AppendCalls.succeeds, Bool.and_eq_true, Option.isNone_iff_eq_none] at ok
  exact writeAll_written_of_ok ok.1

theorem AppendCalls.written_le (calls : AppendCalls) : calls.written ≤ kRecordSize := by
  rw [AppendCalls.written]
  cases failure : (writeAll kRecordSize 0 calls.writes).error with
  | none => exact Nat.le_of_eq (writeAll_written_of_ok failure)
  | some message => exact Nat.le_of_lt (writeAll_written_of_error failure)

/-! ### Appends that go wrong -/

/-- A write call fails, or takes nothing, when a part of the record is in the file. -/
def AppendCalls.tearsRecord (calls : AppendCalls) : Bool :=
  (takenBeforeFailure calls.writes).any
    (fun taken => decide (0 < taken) && decide (taken < kRecordSize))

/-- The writes take the whole record, and the sync that the journal then asks for fails. -/
def AppendCalls.missesSync (durability : JournalDurability) (calls : AppendCalls) : Bool :=
  (takenBeforeFailure calls.writes).all (fun taken => decide (kRecordSize ≤ taken)) &&
    (decide (durability = .fdatasyncEachRecord) && calls.syncFailure.isSome)

/-- These are all the ways in which a failed append leaves something behind. -/
theorem AppendCalls.clean_iff {durability : JournalDurability} {calls : AppendCalls} :
    calls.clean durability = true ↔
      calls.tearsRecord = false ∧ calls.missesSync durability = false := by
  have synced : (decide (durability = .buffered) || calls.syncFailure.isNone) =
      !(decide (durability = .fdatasyncEachRecord) && calls.syncFailure.isSome) := by
    cases durability <;> cases calls.syncFailure <;> rfl
  rw [AppendCalls.clean, AppendCalls.succeeds, AppendCalls.written, AppendCalls.tearsRecord,
    AppendCalls.missesSync, synced]
  generalize (decide (durability = .fdatasyncEachRecord) && calls.syncFailure.isSome) = unsynced
  cases fails : takenBeforeFailure calls.writes with
  | none =>
      rw [writeAll_of_taken_none (Nat.zero_le _) fails]
      cases unsynced <;> decide
  | some taken =>
      obtain ⟨bytes, error⟩ := writeAll_of_taken_some (Nat.zero_le kRecordSize) fails
      rw [Nat.zero_add] at bytes error
      rw [bytes]
      by_cases whole : kRecordSize ≤ taken
      · have within : ¬taken < kRecordSize := Nat.not_lt.mpr whole
        rw [error.mpr whole, Nat.min_eq_left whole]
        simp only [Option.any_some, Option.all_some, whole, within, decide_true, decide_false]
        cases unsynced <;> simp [kRecordSize]
      · have failed := error.not.mpr whole
        have none : min kRecordSize taken = taken := by omega
        simp only [Bool.or_eq_true, Bool.and_eq_true, Option.isNone_iff_eq_none, failed, false_and,
          false_or, none, decide_eq_true_eq, Option.any_some, Option.all_some, whole, decide_false,
          Bool.false_and, and_true, Nat.lt_of_not_le whole, decide_true, Bool.and_true,
          decide_eq_false_iff_not, Nat.not_lt, Nat.le_zero]

/-! ### One append -/

namespace EventJournal

variable {journal : EventJournal} {file : Option (List UInt8)} {durability : JournalDurability}
  {mode : JournalOpenMode} {content : List UInt8}

/-- What one append to an open journal does. -/
structure Appends (journal : EventJournal) (file : List UInt8) (command : Command)
    (calls : AppendCalls) (result : AppendResult) : Prop where
  isOpen : result.journal.isOpen = true
  durability : result.journal.durability = journal.durability
  file : result.file = file ++ (encodeCommand journal.nextOrdinal command).take calls.written
  ok : result.ok = calls.succeeds journal.durability
  nextOrdinal : result.journal.nextOrdinal =
    if calls.written = kRecordSize then journal.nextOrdinal + 1 else journal.nextOrdinal

theorem append_appends (opened : journal.isOpen = true) (file : List UInt8) (command : Command)
    (calls : AppendCalls) :
    journal.Appends file command calls (journal.append file command calls) := by
  obtain ⟨recordType, order, bytes, appended⟩ : ∃ recordType order,
      encodeCommand journal.nextOrdinal command =
        recordBytes recordType journal.nextOrdinal order ∧
      journal.append file command calls = journal.appendRecord file recordType order calls := by
    cases command with
    | newOrder order => exact ⟨_, _, rfl, rfl⟩
    | cancel orderId => exact ⟨_, _, rfl, rfl⟩
  rw [appended]
  unfold appendRecord
  simp only [opened, if_true, length_recordBytes]
  cases failure : (writeAll kRecordSize 0 calls.writes).error with
  | some message =>
      have notAll : calls.written ≠ kRecordSize :=
        Nat.ne_of_lt (writeAll_written_of_error failure)
      refine ⟨rfl, rfl, by rw [bytes]; rfl, ?_, (if_neg notAll).symm⟩
      simp [AppendCalls.succeeds, failure]
  | none =>
      have all : calls.written = kRecordSize := writeAll_written_of_ok failure
      by_cases synced : journal.durability = .fdatasyncEachRecord
      · simp only [synced, if_true, sync]
        cases syncing : calls.syncFailure with
        | none =>
            refine ⟨rfl, synced.symm, by rw [bytes]; rfl, ?_, (if_pos all).symm⟩
            simp [AppendCalls.succeeds, failure, syncing]
        | some strerror =>
            refine ⟨rfl, synced.symm, by rw [bytes]; rfl, ?_, (if_pos all).symm⟩
            simp [AppendCalls.succeeds, failure, syncing, synced]
      · have buffered : journal.durability = .buffered := by
          cases kind : journal.durability with
          | buffered => rfl
          | fdatasyncEachRecord => exact absurd kind synced
        simp only [synced, if_false]
        refine ⟨rfl, rfl, by rw [bytes]; rfl, ?_, (if_pos all).symm⟩
        simp [AppendCalls.succeeds, failure, buffered]

/-! ### Many appends -/

/-- What a sequence of appends leaves behind, and the commands whose append reported
success. -/
structure AppendRun where
  journal : EventJournal
  file : List UInt8
  appended : List Command

def appendAll (journal : EventJournal) (file : List UInt8) :
    List (Command × AppendCalls) → AppendRun
  | [] => ⟨journal, file, []⟩
  | (command, calls) :: rest =>
      let result := journal.append file command calls
      let run := appendAll result.journal result.file rest
      { run with appended := if result.ok then command :: run.appended else run.appended }

/-- The bytes of failed appends. -/
def wasted (durability : JournalDurability) (calls : List (Command × AppendCalls)) : Nat :=
  (calls.map (fun call => if call.2.succeeds durability then 0 else call.2.written)).sum

theorem wasted_eq_zero_iff {calls : List (Command × AppendCalls)} :
    wasted durability calls = 0 ↔ ∀ call ∈ calls, call.2.clean durability = true := by
  rw [wasted, List.sum_eq_zero_iff_forall_eq_nat]
  simp only [List.mem_map, forall_exists_index, and_imp, forall_apply_eq_imp_iff₂,
    AppendCalls.clean, Bool.or_eq_true, decide_eq_true_eq]
  apply forall₂_congr
  intro call _
  by_cases ok : call.2.succeeds durability = true <;> simp [ok]

/-- Every byte of the file is accounted for. -/
theorem length_appendAll (opened : journal.isOpen = true) (file : List UInt8)
    (calls : List (Command × AppendCalls)) :
    (journal.appendAll file calls).file.length = file.length +
      kRecordSize * (journal.appendAll file calls).appended.length +
      wasted journal.durability calls := by
  induction calls generalizing journal file with
  | nil => simp [appendAll, wasted]
  | cons call calls ih =>
      obtain ⟨command, outcomes⟩ := call
      have step := append_appends opened file command outcomes
      have rest := ih step.isOpen (journal.append file command outcomes).file
      rw [step.durability] at rest
      have length : (journal.append file command outcomes).file.length =
          file.length + outcomes.written := by
        rw [step.file, List.length_append, List.length_take, length_encodeCommand,
          Nat.min_eq_left outcomes.written_le]
      simp only [appendAll, wasted, List.map_cons, List.sum_cons] at rest ⊢
      rw [rest, length, step.ok]
      by_cases ok : outcomes.succeeds journal.durability = true
      · have all := AppendCalls.written_of_succeeds ok
        simp only [ok, if_true, List.length_cons, Nat.mul_succ]
        omega
      · simp only [ok, if_false, Bool.false_eq_true]
        omega

/-! ### Appends that leave no torn or unreported record -/

/-- The open journal and its file: valid records, and the ordinal of the next one. -/
structure Tracks (journal : EventJournal) (file : List UInt8) (records : List (List UInt8)) :
    Prop where
  isOpen : journal.isOpen = true
  file : file = records.flatten
  valid : ValidFrom 1 records
  nextOrdinal : journal.nextOrdinal = 1 + UInt64.ofNat records.length

theorem Tracks.append {file : List UInt8} {records : List (List UInt8)}
    (tracks : journal.Tracks file records) (command : Command) {calls : AppendCalls}
    (clean : calls.clean journal.durability = true) :
    ∃ added, (journal.append file command calls).journal.Tracks
        (journal.append file command calls).file (records ++ added) ∧
      added.map decodeCommand =
        if (journal.append file command calls).ok then [journaled command] else [] := by
  have step := append_appends tracks.isOpen file command calls
  by_cases ok : calls.succeeds journal.durability = true
  · have all := AppendCalls.written_of_succeeds ok
    refine ⟨[encodeCommand journal.nextOrdinal command], ⟨step.isOpen, ?_, ?_, ?_⟩, ?_⟩
    · rw [step.file, all, List.take_of_length_le (Nat.le_of_eq (length_encodeCommand _ _)),
        tracks.file, List.flatten_append, List.flatten_singleton]
    · rw [ValidFrom.append, ← tracks.nextOrdinal]
      exact ⟨tracks.valid, length_encodeCommand _ _, validateRecord_encodeCommand _ _, trivial⟩
    · rw [step.nextOrdinal, if_pos all, tracks.nextOrdinal, List.length_append,
        List.length_singleton, UInt64.ofNat_add, UInt64.add_assoc]
      rfl
    · rw [step.ok, ok, if_pos rfl, List.map_singleton, decodeCommand_encodeCommand]
  · have none : calls.written = 0 := by
      rw [AppendCalls.clean, Bool.or_eq_true, decide_eq_true_eq] at clean
      exact clean.resolve_left ok
    refine ⟨[], ⟨step.isOpen, ?_, ?_, ?_⟩, ?_⟩
    · rw [step.file, none, List.take_zero, List.append_nil, List.append_nil, tracks.file]
    · rw [List.append_nil]
      exact tracks.valid
    · rw [step.nextOrdinal, if_neg (by rw [none]; decide), tracks.nextOrdinal, List.append_nil]
    · rw [step.ok, if_neg ok]
      rfl

theorem Tracks.appendAll {file : List UInt8} {records : List (List UInt8)}
    (tracks : journal.Tracks file records) {calls : List (Command × AppendCalls)}
    (clean : ∀ call ∈ calls, call.2.clean journal.durability = true) :
    ∃ added, (journal.appendAll file calls).journal.Tracks (journal.appendAll file calls).file
        (records ++ added) ∧
      added.map decodeCommand = (journal.appendAll file calls).appended.map journaled := by
  induction calls generalizing journal file records with
  | nil => exact ⟨[], by simpa [EventJournal.appendAll] using tracks, rfl⟩
  | cons call calls ih =>
      obtain ⟨command, outcomes⟩ := call
      have step := append_appends tracks.isOpen file command outcomes
      obtain ⟨first, tracks', decoded⟩ := tracks.append command (clean _ List.mem_cons_self)
      obtain ⟨later, final, rest⟩ := ih tracks' (fun call member => by
        rw [step.durability]
        exact clean call (List.mem_cons_of_mem _ member))
      refine ⟨first ++ later, ?_, ?_⟩
      · rw [← List.append_assoc]
        exact final
      · rw [List.map_append, decoded, rest]
        simp only [EventJournal.appendAll]
        split <;> simp

theorem openFile_eq_true {journal opened : EventJournal} {openFailure : Option String}
    (result : journal.openFile file mode openFailure = (opened, some content, true)) :
    opened = { journal with isOpen := true } ∧ content = mode.initialContent file := by
  cases openFailure with
  | some strerror => exact absurd (congrArg (fun triple => triple.2.2) result) Bool.false_ne_true
  | none =>
      obtain ⟨same, rest⟩ := Prod.mk.inj result
      exact ⟨same.symm, (Option.some.inj (Prod.mk.inj rest).1).symm⟩

/-- A file that the scan accepts consists of as many valid records as it counts. -/
theorem valid_of_scanFile {openFailure : Option String} {reads : List ReadOutcome}
    (scanned : (scanFile file openFailure reads).ok = true) :
    ∃ records, file.getD [] = records.flatten ∧ ValidFrom 1 records ∧
      (scanFile file openFailure reads).records = UInt64.ofNat records.length := by
  cases openFailure with
  | some strerror => exact absurd scanned Bool.false_ne_true
  | none =>
      cases file with
      | none => exact ⟨[], rfl, trivial, rfl⟩
      | some content =>
          rw [scanFile] at scanned ⊢
          split at scanned
          · rename_i scan _ read
            obtain ⟨records, same, valid, _, count⟩ := valid_of_readFile read scanned
            exact ⟨records, same, valid, count⟩
          · exact absurd scanned Bool.false_ne_true

/-- A journal that was opened tracks its file. -/
theorem tracks_of_openJournal {journal opened : EventJournal} {calls : OpenCalls}
    (result : journal.openJournal file mode durability calls = (opened, some content, true)) :
    opened.durability = durability ∧ ∃ records, opened.Tracks content records := by
  cases mode with
  | truncate =>
      obtain ⟨rfl, rfl⟩ := openFile_eq_true result
      exact ⟨rfl, [], rfl, rfl, trivial, rfl⟩
  | append =>
      simp only [openJournal] at result
      split at result
      · rename_i scanned
        obtain ⟨rfl, rfl⟩ := openFile_eq_true result
        obtain ⟨records, same, valid, count⟩ := valid_of_scanFile scanned
        refine ⟨rfl, records, rfl, same, valid, ?_⟩
        rw [UInt64.add_comm, ← count]
      · exact absurd (congrArg (fun triple => triple.2.2) result) Bool.false_ne_true

/-! ### All or nothing -/

/-- Replay of the file into a fresh engine accepts it, and its engine has carried out exactly
the commands that were there before and those whose append reported success. -/
def AllOrNothing (limits : RiskLimits) (earlier : List Command) (run : AppendRun)
    (reads : List ReadOutcome) : Prop :=
  ∃ result engine, replay (some run.file) none reads (.fresh limits) = .ok (result, engine) ∧
    result.ok = true ∧
    appliedCommands run.file reads = earlier ++ run.appended.map journaled ∧
    (MatchingEngine.fresh limits).runAll (earlier ++ run.appended.map journaled) = .ok engine

/-- Appending is all-or-nothing exactly when no write call fails in the middle of a record
and no sync fails behind one. -/
theorem allOrNothing_iff (limits : RiskLimits) {file : Option (List UInt8)}
    {mode : JournalOpenMode} {durability : JournalDurability} {opening : OpenCalls}
    {journal : EventJournal} {content : List UInt8}
    (opened : ({} : EventJournal).openJournal file mode durability opening =
      (journal, some content, true))
    (calls : List (Command × AppendCalls)) {reads : List ReadOutcome}
    (calm : NoReadFailure reads) :
    AllOrNothing limits (appliedCommands content reads) (journal.appendAll content calls) reads ↔
      ∀ call ∈ calls,
        call.2.tearsRecord = false ∧ call.2.missesSync durability = false := by
  obtain ⟨rfl, records, tracks⟩ := tracks_of_openJournal opened
  simp only [← AppendCalls.clean_iff]
  have earlier : appliedCommands content reads = records.map decodeCommand := by
    rw [tracks.file, appliedCommands_of_valid tracks.valid calm]
  rw [earlier]
  constructor
  · rintro ⟨result, engine, replayed, accepted, commands, _⟩
    obtain ⟨all, same, valid⟩ := valid_of_replay replayed accepted
    rw [same, appliedCommands_of_valid valid calm] at commands
    have count := congrArg List.length commands
    simp only [List.length_map, List.length_append] at count
    have bytes := length_appendAll tracks.isOpen content calls
    have before := tracks.valid.length_flatten
    rw [same, valid.length_flatten, count, tracks.file, before, Nat.mul_add] at bytes
    exact wasted_eq_zero_iff.mp (by omega)
  · intro clean
    obtain ⟨added, final, decoded⟩ := tracks.appendAll clean
    obtain ⟨result, engine, replayed, accepted, _⟩ :=
      replay_of_valid final.valid calm (consistent_fresh limits)
    rw [← final.file] at replayed
    have applied : appliedCommands (journal.appendAll content calls).file reads =
        records.map decodeCommand ++ (journal.appendAll content calls).appended.map journaled := by
      rw [final.file, appliedCommands_of_valid final.valid calm, List.map_append, decoded]
    refine ⟨result, engine, replayed, accepted, applied, ?_⟩
    rw [← applied]
    exact runAll_of_replay calm (consistent_fresh limits) replayed

/-- An append in short pieces, and one that fails before its first byte. -/
theorem allOrNothing_short_writes :
    let journal := (({} : EventJournal).openJournal none .truncate .buffered {}).1
    let calls : List (Command × AppendCalls) :=
      [(.cancel 7, { writes := [.wrote 20, .interrupted, .wrote 28] }),
        (.cancel 8, { writes := [.interrupted, .failed "No space left on device"] })]
    (∀ call ∈ calls, call.2.tearsRecord = false ∧ call.2.missesSync .buffered = false) ∧
      AllOrNothing {} [] (journal.appendAll [] calls) [] := by
  have opened : ({} : EventJournal).openJournal none .truncate .buffered {} =
    ((({} : EventJournal).openJournal none .truncate .buffered {}).1, some [], true) := rfl
  have calm : NoReadFailure [] := fun _ member => absurd member List.not_mem_nil
  exact ⟨by decide, (allOrNothing_iff {} opened _ calm).mpr (by decide)⟩

/-- A failed `fdatasync`: the append of an order reports failure, and replay accepts the
file and puts the order into the book. A write that fails in the middle of the record
makes replay reject the file. -/
theorem failed_append_not_all_or_nothing :
    let journal := (({} : EventJournal).openJournal none .truncate .fdatasyncEachRecord {}).1
    let order : Order := { id := 1, side := .buy, price := 100, quantity := 10 }
    let unsynced := journal.appendAll []
      [(.newOrder order, { syncFailure := some "Input/output error" })]
    let torn := journal.appendAll []
      [(.newOrder order, { writes := [.wrote 20, .failed "No space left on device"] })]
    (unsynced.appended = [] ∧ ¬AllOrNothing {} [] unsynced [] ∧
      (replay (some unsynced.file) none [] (.fresh {})).toOption.map
        (fun replayed => (replayed.1.ok, replayed.2.book.contains 1)) = some (true, true)) ∧
    torn.appended = [] ∧ ¬AllOrNothing {} [] torn [] ∧
      (replay (some torn.file) none [] (.fresh {})).toOption.map
        (fun replayed => (replayed.1.ok, replayed.1.error)) =
          some (false, "truncated journal record") := by
  refine ⟨⟨by decide +kernel, ?_, by decide +kernel⟩, by decide +kernel, ?_, by decide +kernel⟩
  · rintro ⟨_, _, _, _, commands, _⟩
    exact absurd commands (by decide +kernel)
  · rintro ⟨result, engine, replayed, accepted, _⟩
    obtain ⟨records, same, valid⟩ := valid_of_replay replayed accepted
    have bytes := valid.length_flatten
    rw [← same] at bytes
    have twenty : kRecordSize * records.length = 20 := bytes.symm.trans (by decide +kernel)
    simp only [kRecordSize] at twenty
    omega

end EventJournal

end Lob
