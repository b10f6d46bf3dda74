import Lob.Journal.Record
import Lob.MatchingEngine

/-!
# The event journal

`EventJournal` and its file. The operating system enters as a script: the outcomes of
the calls that a function makes, in order. A `write` or `read` may move fewer bytes than
asked for, be interrupted or fail; a call beyond the end of the script moves everything
it can. A script is finite, so the retry loops of the source always end here, as they do
in every execution in which only finitely many calls are interrupted.

The journal has one path. Its file is the list of its bytes, or `none` while it does not
exist, and `O_APPEND` makes every write an append.
-/

namespace Lob

/-! ### System calls -/

/-- What one `write` call does. -/
inductive WriteOutcome where
  /-- At most this many bytes are taken; zero is the zero-byte write of the source. -/
  | wrote (count : Nat)
  | interrupted
  | failed (strerror : String)
  deriving DecidableEq, Repr

/-- What one `read` call does. -/
inductive ReadOutcome where
  /-- At most this many bytes are returned, and none only at the end of the file. -/
  | got (count : Nat)
  | interrupted
  | failed (strerror : String)
  deriving DecidableEq, Repr

namespace Journal

/-- How `writeAll` ends: the bytes that reached the file and the error, if any. -/
structure WriteResult where
  written : Nat
  error : Option String
  deriving DecidableEq, Repr

/-- `writeAll` for a buffer of `size` bytes of which `written` have been taken. -/
def writeAll (size : Nat) : Nat → List WriteOutcome → WriteResult
  | _, [] => ⟨size, none⟩
  | written, outcome :: outcomes =>
      if written < size then
        match outcome with
        | .interrupted => writeAll size written outcomes
        | .failed strerror => ⟨written, some ("write journal: " ++ strerror)⟩
        | .wrote count =>
            if min count (size - written) = 0 then
              ⟨written, some "write journal: zero-byte write"⟩
            else writeAll size (written + min count (size - written)) outcomes
      else ⟨written, none⟩

/-- `ReadResult` of the source; a full record comes with the rest of the file and of the
script. -/
inductive ReadResult where
  | full (bytes rest : List UInt8) (reads : List ReadOutcome)
  | eofReached
  | partialRecord
  | error (message : String)
  deriving DecidableEq, Repr

/-- `readRecord` after `bytes` have been read and `rest` lies ahead. -/
def readFrom (bytes rest : List UInt8) : List ReadOutcome → ReadResult
  | [] =>
      let need := kRecordSize - bytes.length
      if need ≤ rest.length then .full (bytes ++ rest.take need) (rest.drop need) []
      else if bytes.isEmpty && rest.isEmpty then .eofReached
      else .partialRecord
  | outcome :: outcomes =>
      if bytes.length < kRecordSize then
        match outcome with
        | .interrupted => readFrom bytes rest outcomes
        | .failed strerror => .error ("read journal: " ++ strerror)
        | .got count =>
            let n := min (max 1 count) (min (kRecordSize - bytes.length) rest.length)
            if n = 0 then if bytes.isEmpty then .eofReached else .partialRecord
            else readFrom (bytes ++ rest.take n) (rest.drop n) outcomes
      else .full bytes rest (outcome :: outcomes)

def readRecord (rest : List UInt8) (reads : List ReadOutcome) : ReadResult := readFrom [] rest reads

/-! ### Reading a journal file -/

structure ScanResult where
  ok : Bool := false
  records : UInt64 := 0
  errorOffset : UInt64 := 0
  error : String := ""
  deriving DecidableEq, Repr

/-- The error exit of the loops below. -/
def ScanResult.fail (result : ScanResult) (error : String) : ScanResult :=
  { result with error, errorOffset := result.records * 48 }

/-- The loop that `scanFile` and `replay` share, for at most `fuel` records. The expected
ordinal is one more than the number of records read; `onRecord` is what the loop does
with a valid record. -/
def recordLoop {σ : Type} (onRecord : UInt64 → List UInt8 → σ → Except Fault σ) :
    Nat → List UInt8 → List ReadOutcome → ScanResult → σ → Except Fault (ScanResult × σ)
  | 0, _, _, result, state => .ok (result, state)
  | fuel + 1, rest, reads, result, state =>
      match readRecord rest reads with
      | .eofReached => .ok ({ result with ok := true }, state)
      | .partialRecord => .ok (result.fail "truncated journal record", state)
      | .error message => .ok (result.fail message, state)
      | .full bytes rest reads =>
          match validateRecord bytes (result.records + 1) with
          | some message => .ok (result.fail message, state)
          | none => do
              let state ← onRecord (result.records + 1) bytes state
              recordLoop onRecord fuel rest reads { result with records := result.records + 1 }
                state

/-- The loop over a whole file. -/
def readFile {σ : Type} (onRecord : UInt64 → List UInt8 → σ → Except Fault σ)
    (content : List UInt8) (reads : List ReadOutcome) (state : σ) :
    Except Fault (ScanResult × σ) :=
  recordLoop onRecord (content.length + 1) content reads {} state

/-- The scan passes over a valid record. -/
def skipRecord (_ : UInt64) (_ : List UInt8) (_ : Unit) : Except Fault Unit := .ok ()

/-- `scanFile`; `openFailure` is an error of `open` other than a missing file. -/
def scanFile (file : Option (List UInt8)) (openFailure : Option String)
    (reads : List ReadOutcome) : ScanResult :=
  match openFailure, file with
  | some strerror, _ => { error := "open journal for scan: " ++ strerror }
  | none, none => { ok := true }
  | none, some content =>
      match readFile skipRecord content reads () with
      | .ok (result, _) => result
      | .error _ => {}

end Journal

/-! ### Appending -/

inductive JournalOpenMode where
  | truncate
  | append
  deriving DecidableEq, Repr

/-- The bytes that the file starts with: `O_TRUNC` empties it, `O_CREAT` creates it empty. -/
def JournalOpenMode.initialContent (mode : JournalOpenMode) (file : Option (List UInt8)) :
    List UInt8 :=
  match mode with
  | .truncate => []
  | .append => file.getD []

inductive JournalDurability where
  | buffered
  | fdatasyncEachRecord
  deriving DecidableEq, Repr

/-- `class EventJournal`; the descriptor is open or not. -/
structure EventJournal where
  isOpen : Bool := false
  nextOrdinal : UInt64 := 1
  durability : JournalDurability := .buffered
  lastError : String := ""
  deriving DecidableEq, Repr

/-- The outcomes of the calls that `open` makes. -/
structure OpenCalls where
  scanOpenFailure : Option String := none
  reads : List ReadOutcome := []
  openFailure : Option String := none
  deriving DecidableEq, Repr

/-- The outcomes of the calls that one append makes. -/
structure AppendCalls where
  writes : List WriteOutcome := []
  syncFailure : Option String := none
  deriving DecidableEq, Repr

/-- What an append leaves behind and returns. -/
structure AppendResult where
  journal : EventJournal
  file : List UInt8
  ok : Bool
  deriving DecidableEq, Repr

namespace EventJournal

open Journal

def close (journal : EventJournal) : EventJournal := { journal with isOpen := false }

/-- The second half of `EventJournal::open`, from the `open` call on. -/
def openFile (journal : EventJournal) (file : Option (List UInt8)) (mode : JournalOpenMode)
    (openFailure : Option String) : EventJournal × Option (List UInt8) × Bool :=
  match openFailure with
  | some strerror => ({ journal with lastError := "open journal: " ++ strerror }, file, false)
  | none => ({ journal with isOpen := true }, some (mode.initialContent file), true)

/-- `EventJournal::open`. -/
def openJournal (journal : EventJournal) (file : Option (List UInt8)) (mode : JournalOpenMode)
    (durability : JournalDurability) (calls : OpenCalls) :
    EventJournal × Option (List UInt8) × Bool :=
  let journal := { journal.close with lastError := "", durability, nextOrdinal := 1 }
  match mode with
  | .truncate => journal.openFile file mode calls.openFailure
  | .append =>
      let scan := scanFile file calls.scanOpenFailure calls.reads
      if scan.ok then
        { journal with nextOrdinal := scan.records + 1 }.openFile file mode calls.openFailure
      else
        ({ journal with
            lastError := scan.error ++ " at byte offset " ++ toString scan.errorOffset.toNat },
          file, false)

/-- `EventJournal::sync`. -/
def sync (journal : EventJournal) (syncFailure : Option String) : EventJournal × Bool :=
  if journal.isOpen then
    match syncFailure with
    | some strerror => ({ journal with lastError := "fdatasync journal: " ++ strerror }, false)
    | none => (journal, true)
  else ({ journal with lastError := "journal is not open" }, false)

/-- `EventJournal::appendRecord`. -/
def appendRecord (journal : EventJournal) (file : List UInt8) (recordType : UInt8) (order : Order)
    (calls : AppendCalls) : AppendResult :=
  if journal.isOpen then
    let bytes := recordBytes recordType journal.nextOrdinal order
    let result := writeAll bytes.length 0 calls.writes
    let file := file ++ bytes.take result.written
    match result.error with
    | some message => ⟨{ journal with lastError := message }, file, false⟩
    | none =>
        let journal := { journal with nextOrdinal := journal.nextOrdinal + 1 }
        if journal.durability = .fdatasyncEachRecord then
          let (journal, synced) := journal.sync calls.syncFailure
          ⟨journal, file, synced⟩
        else ⟨journal, file, true⟩
  else ⟨{ journal with lastError := "journal is not open" }, file, false⟩

def appendNewOrder (journal : EventJournal) (file : List UInt8) (order : Order)
    (calls : AppendCalls) : AppendResult :=
  journal.appendRecord file kNewOrderRecord order calls

def appendCancel (journal : EventJournal) (file : List UInt8) (orderId : UInt64)
    (calls : AppendCalls) : AppendResult :=
  journal.appendRecord file kCancelRecord { id := orderId } calls

/-- The append that the main loop chooses for a command. -/
def append (journal : EventJournal) (file : List UInt8) (command : Command)
    (calls : AppendCalls) : AppendResult :=
  match command with
  | .newOrder order => journal.appendNewOrder file order calls
  | .cancel orderId => journal.appendCancel file orderId calls

end EventJournal

/-! ### Replay -/

structure JournalReplayResult where
  ok : Bool := false
  records : UInt64 := 0
  newOrders : UInt64 := 0
  cancels : UInt64 := 0
  accepted : UInt64 := 0
  rejected : UInt64 := 0
  trades : UInt64 := 0
  lastOrdinal : UInt64 := 0
  errorOffset : UInt64 := 0
  error : String := ""
  deriving DecidableEq, Repr

namespace Journal

/-- The variables of `replay` that its loop body changes. -/
structure ReplayState where
  engine : MatchingEngine
  newOrders : UInt64 := 0
  cancels : UInt64 := 0
  accepted : UInt64 := 0
  rejected : UInt64 := 0
  trades : UInt64 := 0
  lastOrdinal : UInt64 := 0

/-- The loop body of `replay` for a valid record; the trade vector starts out empty. -/
def replayRecord (expected : UInt64) (bytes : List UInt8) (state : ReplayState) :
    Except Fault ReplayState := do
  let isNewOrder := decide (bytes.getD 6 0 = kNewOrderRecord)
  let response ← state.engine.apply (decodeCommand bytes) []
  return {
    engine := response.engine
    newOrders := if isNewOrder then state.newOrders + 1 else state.newOrders
    cancels := if isNewOrder then state.cancels else state.cancels + 1
    accepted := if response.report.accepted then state.accepted + 1 else state.accepted
    rejected := if response.report.accepted then state.rejected else state.rejected + 1
    trades := state.trades + UInt64.ofNat response.outTrades.length
    lastOrdinal := expected }

/-- The result that `replay` reports for the end of its loop. -/
def replayResult (scan : ScanResult) (state : ReplayState) : JournalReplayResult where
  ok := scan.ok
  records := scan.records
  newOrders := state.newOrders
  cancels := state.cancels
  accepted := state.accepted
  rejected := state.rejected
  trades := state.trades
  lastOrdinal := state.lastOrdinal
  errorOffset := scan.errorOffset
  error := scan.error

end Journal

open Journal in
/-- `EventJournal::replay`; `openFailure` is an error of `open` other than a missing file. -/
def EventJournal.replay (file : Option (List UInt8)) (openFailure : Option String)
    (reads : List ReadOutcome) (engine : MatchingEngine) :
    Except Fault (JournalReplayResult × MatchingEngine) :=
  match openFailure, file with
  | some strerror, _ => .ok ({ error := "open journal for replay: " ++ strerror }, engine)
  | none, none => .ok ({ error := "open journal for replay: No such file or directory" }, engine)
  | none, some content => do
      let (scan, state) ← readFile replayRecord content reads { engine }
      return (replayResult scan state, state.engine)

end Lob
