import Lob.Journal.Append
import Lob.Journal.Prefix

/-!
# How the system splits transfers

`readRecord` and `writeAll` loop over calls that may move fewer bytes than asked for or be
interrupted. Repeated calls of `readRecord` cut a file into its blocks of 48 bytes and end
with the verdict on what is left, whatever the reads return, so nothing that is computed
from a file depends on them. The writes of `writeAll` are followed here byte by byte: each
appends a piece of the buffer to the file, and the pieces join to the bytes that the count of
`writeAll` says.
-/

namespace Lob

namespace Journal

variable {reads reads' : List ReadOutcome} {content : List UInt8}

/-! ### Reading -/

/-- What repeated calls of `readRecord` deliver: the full records, and the first result that
is none. -/
structure ReadRun where
  blocks : List (List UInt8)
  last : Option ReadResult
  deriving DecidableEq, Repr

/-- Calls of `readRecord` until one delivers no full record, at most `fuel` of them. -/
def readLoop : Nat → List UInt8 → List ReadOutcome → ReadRun
  | 0, _, _ => ⟨[], none⟩
  | fuel + 1, rest, reads =>
      match readRecord rest reads with
      | .full bytes rest reads =>
          let run := readLoop fuel rest reads
          { run with blocks := bytes :: run.blocks }
      | result => ⟨[], some result⟩

/-- Repeated calls of `readRecord` on a whole file. -/
def readRecords (content : List UInt8) (reads : List ReadOutcome) : ReadRun :=
  readLoop (content.length + 1) content reads

/-- The consecutive full blocks of a file. -/
def blocks (content : List UInt8) : List (List UInt8) :=
  (List.range (content.length / kRecordSize)).map (recordAt content)

/-- The verdict on the bytes behind the last full block. -/
def tailResult (content : List UInt8) : ReadResult :=
  if content.length % kRecordSize = 0 then .eofReached else .partialRecord

theorem blocks_of_lt (short : content.length < kRecordSize) :
    blocks content = [] := by
  rw [blocks, Nat.div_eq_of_lt short]
  rfl

theorem blocks_of_le (enough : kRecordSize ≤ content.length) :
    blocks content = content.take kRecordSize :: blocks (content.drop kRecordSize) := by
  have quotient : content.length / kRecordSize =
      (content.drop kRecordSize).length / kRecordSize + 1 := by
    rw [List.length_drop, Nat.div_eq_sub_div (by decide) enough]
  have first : (content.take kRecordSize).length = kRecordSize := by
    rw [List.length_take, Nat.min_eq_left enough]
  have split := List.take_append_drop kRecordSize content
  rw [blocks, quotient, List.range_succ_eq_map, List.map_cons, List.map_map, blocks]
  refine congrArg₂ List.cons ?_ (List.map_congr_left fun i _ => ?_)
  · rw [recordAt, Nat.mul_zero, List.drop_zero]
  · rw [Function.comp_apply, Nat.succ_eq_add_one]
    conv_lhs => rw [← split]
    exact recordAt_succ first i

theorem tailResult_of_le (enough : kRecordSize ≤ content.length) :
    tailResult content = tailResult (content.drop kRecordSize) := by
  rw [tailResult, tailResult, List.length_drop, Nat.mod_eq_sub_mod enough]

/-- The full blocks are all of the file but a shorter tail. -/
theorem flatten_blocks (content : List UInt8) :
    ∃ tail, content = (blocks content).flatten ++ tail ∧ tail.length < kRecordSize ∧
      (tail = [] ↔ content.length % kRecordSize = 0) := by
  induction size : content.length using Nat.strong_induction_on generalizing content with
  | h n ih =>
      subst size
      by_cases enough : kRecordSize ≤ content.length
      · have shorter : (content.drop kRecordSize).length < content.length := by
          rw [List.length_drop]
          simp only [kRecordSize] at enough ⊢
          omega
        obtain ⟨tail, same, short, empty⟩ := ih _ shorter (content.drop kRecordSize) rfl
        refine ⟨tail, ?_, short, ?_⟩
        · rw [blocks_of_le enough, List.flatten_cons, List.append_assoc, ← same,
            List.take_append_drop]
        · rw [empty, List.length_drop, Nat.mod_eq_sub_mod enough]
      · have short := Nat.lt_of_not_le enough
        refine ⟨content, by rw [blocks_of_lt short]; rfl, short, ?_⟩
        rw [Nat.mod_eq_of_lt short, List.length_eq_zero_iff]

theorem readLoop_eq (fuel : Nat) (content : List UInt8) {reads : List ReadOutcome}
    (calm : NoReadFailure reads) (enough : content.length < fuel) :
    readLoop fuel content reads = ⟨blocks content, some (tailResult content)⟩ := by
  induction fuel generalizing content reads with
  | zero => exact absurd enough (Nat.not_lt_zero _)
  | succ fuel ih =>
      have delivered := readRecord_delivers content calm
      rw [Delivers] at delivered
      rw [readLoop]
      by_cases full : kRecordSize ≤ content.length
      · rw [if_pos full] at delivered
        obtain ⟨later, read, calm'⟩ := delivered
        have shorter : (content.drop kRecordSize).length < fuel := by
          rw [List.length_drop]
          simp only [kRecordSize] at full ⊢
          omega
        rw [read, blocks_of_le full, tailResult_of_le full]
        dsimp only
        rw [ih (content.drop kRecordSize) (calm' calm) shorter]
      · have short := Nat.lt_of_not_le full
        rw [if_neg full] at delivered
        rw [blocks_of_lt short, tailResult, Nat.mod_eq_of_lt short]
        split at delivered
        · rename_i empty
          rw [delivered, if_pos (List.length_eq_zero_iff.mpr empty)]
        · rename_i nonempty
          rw [delivered, if_neg (List.length_eq_zero_iff.not.mpr nonempty)]

/-- The loop of `scanFile` and `replay` does not depend on how the reads come, whatever its
body does. -/
theorem recordLoop_congr {σ : Type} (onRecord : UInt64 → List UInt8 → σ → Except Fault σ)
    (fuel : Nat) (content : List UInt8) (calm : NoReadFailure reads) (calm' : NoReadFailure reads')
    (result : ScanResult) (state : σ) :
    recordLoop onRecord fuel content reads result state =
      recordLoop onRecord fuel content reads' result state := by
  induction fuel generalizing content reads reads' result state with
  | zero => rfl
  | succ fuel ih =>
      have delivered := readRecord_delivers content calm
      have delivered' := readRecord_delivers content calm'
      rw [Delivers] at delivered delivered'
      rw [recordLoop, recordLoop]
      by_cases full : kRecordSize ≤ content.length
      · rw [if_pos full] at delivered delivered'
        obtain ⟨later, read, calmLater⟩ := delivered
        obtain ⟨later', read', calmLater'⟩ := delivered'
        rw [read, read']
        dsimp only
        split
        · rfl
        · refine congrArg _ (funext fun next => ?_)
          exact ih _ (calmLater calm) (calmLater' calm') _ next
      · rw [if_neg full] at delivered delivered'
        split at delivered
        · rename_i empty
          rw [if_pos empty] at delivered'
          rw [delivered, delivered']
        · rename_i nonempty
          rw [if_neg nonempty] at delivered'
          rw [delivered, delivered']

theorem readFile_congr {σ : Type} (onRecord : UInt64 → List UInt8 → σ → Except Fault σ)
    (content : List UInt8) (calm : NoReadFailure reads) (calm' : NoReadFailure reads') (state : σ) :
    readFile onRecord content reads state = readFile onRecord content reads' state :=
  recordLoop_congr onRecord _ content calm calm' _ state

theorem scanFile_congr (file : Option (List UInt8)) (openFailure : Option String)
    (calm : NoReadFailure reads) (calm' : NoReadFailure reads') :
    scanFile file openFailure reads = scanFile file openFailure reads' := by
  cases openFailure with
  | some strerror => rfl
  | none =>
      cases file with
      | none => rfl
      | some content => rw [scanFile, scanFile, readFile_congr skipRecord content calm calm']

theorem replay_congr (file : Option (List UInt8)) (openFailure : Option String)
    (calm : NoReadFailure reads) (calm' : NoReadFailure reads') (engine : MatchingEngine) :
    EventJournal.replay file openFailure reads engine =
      EventJournal.replay file openFailure reads' engine := by
  cases openFailure with
  | some strerror => rfl
  | none =>
      cases file with
      | none => rfl
      | some content =>
          rw [EventJournal.replay, EventJournal.replay,
            readFile_congr replayRecord content calm calm']

/-! ### Writing -/

/-- `writeAll` on the file itself: a call appends the bytes that it takes from the buffer
behind the `written` ones. -/
def writeBytes (data : List UInt8) :
    Nat → List UInt8 → List WriteOutcome → List UInt8 × Option String
  | written, file, [] => (file ++ data.drop written, none)
  | written, file, outcome :: outcomes =>
      if written < data.length then
        match outcome with
        | .interrupted => writeBytes data written file outcomes
        | .failed strerror => (file, some ("write journal: " ++ strerror))
        | .wrote count =>
            let n := min count (data.length - written)
            if n = 0 then (file, some "write journal: zero-byte write")
            else writeBytes data (written + n) (file ++ (data.drop written).take n) outcomes
      else (file, none)

/-- The file ends with as many bytes of the buffer as `writeAll` counts. -/
theorem writeBytes_eq (data file : List UInt8) {written : Nat} (within : written ≤ data.length)
    (writes : List WriteOutcome) :
    writeBytes data written (file ++ data.take written) writes =
      (file ++ data.take (writeAll data.length written writes).written,
        (writeAll data.length written writes).error) := by
  induction writes generalizing written with
  | nil =>
      rw [writeBytes, writeAll, List.append_assoc, List.take_append_drop, List.take_length]
  | cons outcome writes ih =>
      unfold writeBytes writeAll
      split
      · cases outcome with
        | interrupted => exact ih within
        | failed strerror => rfl
        | wrote count =>
            dsimp only
            split
            · rfl
            · have reached : written + min count (data.length - written) ≤ data.length := by omega
              rw [List.append_assoc, ← List.take_add]
              exact ih reached
      · rfl

/-- The transfers of the system are invisible. Repeated reads deliver the consecutive blocks
of a file, then `PARTIAL` if a shorter tail is left and `EOF_REACHED` if none is; `scanFile`
and `replay` give the same result for all ways of splitting the reads. The writes of `writeAll`
leave as many bytes of the buffer behind the file as `writeAll` counts, with its error, and for
all ways of splitting writes that do not fail these are exactly the buffer. -/
theorem chunking_invisible (content : List UInt8) :
    (∃ tail, content = (blocks content).flatten ++ tail ∧ tail.length < kRecordSize ∧
      (∀ block ∈ blocks content, block.length = kRecordSize) ∧
      ∀ reads, NoReadFailure reads →
        (readRecords content reads).blocks = blocks content ∧
        ((readRecords content reads).last = some .partialRecord ↔ tail ≠ []) ∧
        ((readRecords content reads).last = some .eofReached ↔ tail = [])) ∧
    (∀ reads reads', NoReadFailure reads → NoReadFailure reads' → ∀ openFailure,
      scanFile (some content) openFailure reads = scanFile (some content) openFailure reads' ∧
      ∀ engine, EventJournal.replay (some content) openFailure reads engine =
        EventJournal.replay (some content) openFailure reads' engine) ∧
    ∀ data writes,
      writeBytes data 0 content writes =
        (content ++ data.take (writeAll data.length 0 writes).written,
          (writeAll data.length 0 writes).error) ∧
      (NoWriteFailure writes → writeBytes data 0 content writes = (content ++ data, none)) := by
  refine ⟨?_, ?_, ?_⟩
  · obtain ⟨tail, same, short, empty⟩ := flatten_blocks content
    refine ⟨tail, same, short, ?_, fun reads calm => ?_⟩
    · intro block member
      obtain ⟨i, inside, rfl⟩ := List.mem_map.mp member
      have below : kRecordSize * (i + 1) ≤ content.length :=
        (Nat.mul_le_mul_left _ (List.mem_range.mp inside)).trans (Nat.mul_div_le _ _)
      rw [Nat.mul_succ] at below
      rw [recordAt, List.length_take, List.length_drop]
      omega
    · rw [readRecords, readLoop_eq _ content calm (Nat.lt_succ_self _), tailResult]
      by_cases none : content.length % kRecordSize = 0
      · simp [none, empty.mpr none]
      · simp [none, mt empty.mp none]
  · intro reads reads' calm calm' openFailure
    exact ⟨scanFile_congr _ openFailure calm calm',
      fun engine => replay_congr _ openFailure calm calm' engine⟩
  · intro data writes
    have written := writeBytes_eq data content (Nat.zero_le _) writes
    rw [List.take_zero, List.append_nil] at written
    refine ⟨written, fun smooth => ?_⟩
    rw [writeAll_of_taken_none (Nat.zero_le _) smooth.taken_eq_none] at written
    rwa [List.take_length] at written

end Journal

end Lob
