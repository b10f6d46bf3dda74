import Lob.Journal

/-!
# The records of a journal file

How the system splits reads does not matter: as long as no read fails, `readRecord`
delivers the next 48 bytes. The loop that `scanFile` and `replay` share then accepts a
file exactly when it is a sequence of valid records with consecutive ordinals, and it
hands these records to its body one after another.
-/

namespace Lob

/-- No read of the script fails. -/
def NoReadFailure (reads : List ReadOutcome) : Prop := ∀ outcome ∈ reads, ∀ e, outcome ≠ .failed e

theorem NoReadFailure.tail {outcome : ReadOutcome} {reads : List ReadOutcome}
    (calm : NoReadFailure (outcome :: reads)) : NoReadFailure reads :=
  fun other member => calm other (List.mem_cons_of_mem _ member)

namespace Journal

variable {reads : List ReadOutcome}

/-! ### One record -/

/-- What `readRecord` delivers when the file goes on with `ahead`. -/
def Delivers (ahead : List UInt8) (reads : List ReadOutcome) (result : ReadResult) : Prop :=
  if kRecordSize ≤ ahead.length then
    ∃ later, result = .full (ahead.take kRecordSize) (ahead.drop kRecordSize) later ∧
      (NoReadFailure reads → NoReadFailure later)
  else if ahead = [] then result = .eofReached
  else result = .partialRecord

theorem Delivers.cons {ahead : List UInt8} {result : ReadResult}
    (delivers : Delivers ahead reads result) (outcome : ReadOutcome) :
    Delivers ahead (outcome :: reads) result := by
  unfold Delivers at delivers ⊢
  split at delivers
  · rename_i enough
    obtain ⟨later, full, calm⟩ := delivers
    rw [if_pos enough]
    exact ⟨later, full, fun noFailure => calm noFailure.tail⟩
  · rename_i short
    rwa [if_neg short]

/-- The bytes read so far and the rest of the file together decide the outcome, unless a
read fails. -/
theorem readFrom_delivers (reads : List ReadOutcome) (bytes rest : List UInt8)
    (room : bytes.length ≤ kRecordSize) :
    Delivers (bytes ++ rest) reads (readFrom bytes rest reads) ∨
      ¬NoReadFailure reads ∧ ∃ message, readFrom bytes rest reads = .error message := by
  induction reads generalizing bytes rest with
  | nil =>
      left
      rw [Delivers, readFrom, List.length_append]
      by_cases enough : kRecordSize - bytes.length ≤ rest.length
      · rw [if_pos (by omega)]
        refine ⟨[], ?_, fun calm => calm⟩
        simp only [enough, if_true]
        rw [List.take_append, List.take_of_length_le room, List.drop_append,
          List.drop_of_length_le room, List.nil_append]
      · rw [if_neg (by omega)]
        simp only [enough, if_false]
        cases bytes <;> cases rest <;> simp
  | cons outcome reads ih =>
      -- the later calls decide, and their failures are failures of the whole script
      have later : ∀ bytes' rest' : List UInt8, bytes'.length ≤ kRecordSize →
          Delivers (bytes' ++ rest') (outcome :: reads) (readFrom bytes' rest' reads) ∨
            ¬NoReadFailure (outcome :: reads) ∧
              ∃ message, readFrom bytes' rest' reads = .error message := by
        intro bytes' rest' room'
        refine (ih bytes' rest' room').imp (fun delivers => delivers.cons outcome) ?_
        exact fun failed => ⟨fun calm => failed.1 calm.tail, failed.2⟩
      unfold readFrom
      by_cases more : bytes.length < kRecordSize
      · rw [if_pos more]
        cases outcome with
        | interrupted => exact later bytes rest room
        | failed e => exact Or.inr ⟨fun calm => calm _ List.mem_cons_self e rfl, _, rfl⟩
        | got count =>
            dsimp only
            split
            · -- nothing came, so the file ends here
              have ended : rest = [] := by
                apply List.length_eq_zero_iff.mp
                omega
              subst ended
              rw [List.append_nil, Delivers, if_neg (by omega)]
              cases bytes <;> simp
            · have joined := later
                (bytes ++ rest.take (min (max 1 count)
                  (min (kRecordSize - bytes.length) rest.length)))
                (rest.drop (min (max 1 count) (min (kRecordSize - bytes.length) rest.length)))
                (by rw [List.length_append, List.length_take]; omega)
              rwa [List.append_assoc, List.take_append_drop] at joined
      · have full : bytes.length = kRecordSize := by omega
        rw [if_neg more, Delivers, List.length_append, if_pos (by omega)]
        refine Or.inl ⟨_, ?_, fun calm => calm⟩
        rw [List.take_left' full, List.drop_left' full]

theorem readRecord_delivers (rest : List UInt8) (calm : NoReadFailure reads) :
    Delivers rest reads (readRecord rest reads) :=
  (readFrom_delivers reads [] rest (Nat.zero_le _)).resolve_right (fun failed => failed.1 calm)

/-- A record that was read in full is the next one of the file. -/
theorem full_of_readRecord {rest bytes rest' : List UInt8} {reads later : List ReadOutcome}
    (read : readRecord rest reads = .full bytes rest' later) :
    bytes.length = kRecordSize ∧ rest = bytes ++ rest' := by
  rcases readFrom_delivers reads [] rest (Nat.zero_le _) with delivers | ⟨_, message, failed⟩
  · rw [List.nil_append, Delivers] at delivers
    split at delivers
    · rename_i enough
      obtain ⟨_, full, _⟩ := delivers
      obtain ⟨rfl, rfl, _⟩ := ReadResult.full.inj (read.symm.trans full)
      exact ⟨by rw [List.length_take]; omega, (List.take_append_drop _ _).symm⟩
    · split at delivers
      · exact ReadResult.noConfusion (read.symm.trans delivers)
      · exact ReadResult.noConfusion (read.symm.trans delivers)
  · exact ReadResult.noConfusion (read.symm.trans failed)

theorem nil_of_readRecord {rest : List UInt8} (ended : readRecord rest reads = .eofReached) :
    rest = [] := by
  rcases readFrom_delivers reads [] rest (Nat.zero_le _) with delivers | ⟨_, message, failed⟩
  · rw [List.nil_append, Delivers] at delivers
    split at delivers
    · obtain ⟨_, full, _⟩ := delivers
      exact ReadResult.noConfusion (ended.symm.trans full)
    · split at delivers
      · assumption
      · exact ReadResult.noConfusion (ended.symm.trans delivers)
  · exact ReadResult.noConfusion (ended.symm.trans failed)

/-! ### A whole file -/

/-- Valid records with consecutive ordinals from `first` on. -/
def ValidFrom : UInt64 → List (List UInt8) → Prop
  | _, [] => True
  | first, record :: records =>
      record.length = kRecordSize ∧ validateRecord record first = none ∧
        ValidFrom (first + 1) records

theorem add_one_add_ofNat (first : UInt64) (count : Nat) :
    first + 1 + UInt64.ofNat count = first + UInt64.ofNat (count + 1) := by
  rw [UInt64.ofNat_add, UInt64.add_assoc, UInt64.add_comm 1]
  rfl

theorem ValidFrom.append {first : UInt64} {front back : List (List UInt8)} :
    ValidFrom first (front ++ back) ↔
      ValidFrom first front ∧ ValidFrom (first + UInt64.ofNat front.length) back := by
  induction front generalizing first with
  | nil => simp [ValidFrom]
  | cons record front ih =>
      rw [List.cons_append, ValidFrom, ValidFrom, ih, List.length_cons, add_one_add_ofNat]
      tauto

theorem ValidFrom.length_flatten {first : UInt64} {records : List (List UInt8)}
    (valid : ValidFrom first records) : records.flatten.length = kRecordSize * records.length := by
  induction records generalizing first with
  | nil => rfl
  | cons record records ih =>
      obtain ⟨length, _, rest⟩ := valid
      rw [List.flatten_cons, List.length_append, ih rest, length, List.length_cons]
      simp only [kRecordSize]
      omega

/-- The body of the loop, run over a list of records. -/
def foldRecords {σ : Type} (onRecord : UInt64 → List UInt8 → σ → Except Fault σ) :
    UInt64 → List (List UInt8) → σ → Except Fault σ
  | _, [], state => .ok state
  | first, record :: records, state => do
      let state ← onRecord first record state
      foldRecords onRecord (first + 1) records state

theorem foldRecords_skipRecord (first : UInt64) (records : List (List UInt8)) :
    foldRecords skipRecord first records () = .ok () := by
  induction records generalizing first with
  | nil => rfl
  | cons record records ih =>
      simp only [foldRecords, skipRecord, bind, Except.bind]
      exact ih (first + 1)

/-- What the loop finds wrong where the file goes on with `tail` and `ordinal` is expected;
nothing at the end of the file. -/
def stopError (tail : List UInt8) (ordinal : UInt64) : Option String :=
  if tail = [] then none
  else if tail.length < kRecordSize then some "truncated journal record"
  else validateRecord (tail.take kRecordSize) ordinal

/-- The loop stops in front of `tail`: at the end of the file or at an error. -/
def Stops (tail : List UInt8) (ordinal : UInt64) : Prop :=
  tail = [] ∨ stopError tail ordinal ≠ none

/-- The result with which the loop stops. -/
def ScanResult.stopped (result : ScanResult) : Option String → ScanResult
  | none => { result with ok := true }
  | some message => result.fail message

/-- Every file is a sequence of valid records up to where the loop stops. -/
theorem exists_leading (content : List UInt8) (first : UInt64) :
    ∃ records tail, content = records.flatten ++ tail ∧ ValidFrom first records ∧
      Stops tail (first + UInt64.ofNat records.length) := by
  induction size : content.length using Nat.strong_induction_on generalizing content first with
  | h n ih =>
      by_cases going : kRecordSize ≤ content.length ∧
          validateRecord (content.take kRecordSize) first = none
      · obtain ⟨enough, passes⟩ := going
        have shorter : (content.drop kRecordSize).length < n := by
          rw [List.length_drop]
          simp only [kRecordSize] at enough ⊢
          omega
        obtain ⟨records, tail, same, valid, stops⟩ :=
          ih _ shorter (content.drop kRecordSize) (first + 1) rfl
        refine ⟨content.take kRecordSize :: records, tail, ?_, ⟨?_, passes, valid⟩, ?_⟩
        · rw [List.flatten_cons, List.append_assoc, ← same, List.take_append_drop]
        · rw [List.length_take]
          omega
        · rw [List.length_cons, ← add_one_add_ofNat]
          exact stops
      · refine ⟨[], content, rfl, trivial, ?_⟩
        by_cases empty : content = []
        · exact Or.inl empty
        · refine Or.inr ?_
          rw [stopError, if_neg empty]
          split
          · simp
          · rename_i enough
            simpa using fun passes => going ⟨by omega, passes⟩

section Loop

variable {σ : Type} {onRecord : UInt64 → List UInt8 → σ → Except Fault σ}
variable {reads : List ReadOutcome} {state final : σ} {tail : List UInt8}
  {records : List (List UInt8)}

/-- The loop stops in front of the first record that it refuses. -/
theorem recordLoop_stops (result : ScanResult) (state : σ) (stops : Stops tail (result.records + 1))
    (calm : NoReadFailure reads) (fuel : Nat) :
    recordLoop onRecord (fuel + 1) tail reads result state =
      .ok (result.stopped (stopError tail (result.records + 1)), state) := by
  have delivered := readRecord_delivers tail calm
  rw [Delivers] at delivered
  rw [recordLoop, stopError]
  by_cases empty : tail = []
  · subst empty
    rw [if_neg (by decide), if_pos rfl] at delivered
    rw [delivered, if_pos rfl]
    rfl
  · rw [if_neg empty]
    by_cases enough : kRecordSize ≤ tail.length
    · rw [if_pos enough] at delivered
      obtain ⟨later, full, _⟩ := delivered
      have refused := stops.resolve_left empty
      rw [stopError, if_neg empty, if_neg (by omega)] at refused
      rw [full, if_neg (by omega)]
      cases message : validateRecord (tail.take kRecordSize) (result.records + 1) with
      | none => exact absurd message refused
      | some message => simp only [message, ScanResult.stopped]
    · rw [if_neg enough, if_neg empty] at delivered
      rw [delivered, if_pos (by omega)]
      rfl

/-- The loop runs its body over the leading valid records and stops behind them. -/
theorem recordLoop_of_leading (result : ScanResult) (valid : ValidFrom (result.records + 1) records)
    (stops : Stops tail (result.records + UInt64.ofNat records.length + 1))
    (body : foldRecords onRecord (result.records + 1) records state = .ok final)
    (calm : NoReadFailure reads) {fuel : Nat} (enough : records.length < fuel) :
    recordLoop onRecord fuel (records.flatten ++ tail) reads result state =
      .ok ({ result with records := result.records + UInt64.ofNat records.length }.stopped
        (stopError tail (result.records + UInt64.ofNat records.length + 1)), final) := by
  induction records generalizing result state reads fuel with
  | nil =>
      obtain ⟨fuel, rfl⟩ := Nat.exists_eq_succ_of_ne_zero (Nat.ne_zero_of_lt enough)
      obtain rfl := Except.ok.inj body
      have none : result.records + UInt64.ofNat ([] : List (List UInt8)).length =
          result.records := by simp
      rw [none] at stops ⊢
      exact recordLoop_stops result state stops calm fuel
  | cons record records ih =>
      obtain ⟨length, passes, valid⟩ := valid
      obtain ⟨fuel, rfl⟩ := Nat.exists_eq_succ_of_ne_zero (Nat.ne_zero_of_lt enough)
      have delivered := readRecord_delivers (record ++ (records.flatten ++ tail)) calm
      rw [Delivers, if_pos (by rw [List.length_append]; omega), List.take_left' length,
        List.drop_left' length] at delivered
      obtain ⟨reads', full, calm'⟩ := delivered
      simp only [foldRecords, bind, Except.bind] at body
      split at body
      · contradiction
      rename_i next applied
      rw [List.length_cons] at enough
      rw [List.length_cons, ← add_one_add_ofNat] at stops ⊢
      rw [List.flatten_cons, List.append_assoc, recordLoop, full]
      simp only [passes, applied, bind, Except.bind]
      exact ih { result with records := result.records + 1 } valid stops body (calm' calm)
        (Nat.lt_of_succ_lt_succ enough)

/-- A file that the loop accepts consists of valid records. -/
theorem valid_of_recordLoop {fuel : Nat} {rest : List UInt8} {result result' : ScanResult}
    (loop : recordLoop onRecord fuel rest reads result state = .ok (result', final))
    (fresh : result.ok = false) (accepted : result'.ok = true) :
    ∃ records, rest = records.flatten ∧ ValidFrom (result.records + 1) records ∧
      foldRecords onRecord (result.records + 1) records state = .ok final ∧
      result'.records = result.records + UInt64.ofNat records.length := by
  induction fuel generalizing rest reads result state with
  | zero =>
      obtain ⟨rfl, rfl⟩ := Prod.mk.inj (Except.ok.inj loop)
      exact absurd (fresh.symm.trans accepted) Bool.false_ne_true
  | succ fuel ih =>
      rw [recordLoop] at loop
      split at loop
      · rename_i ended
        obtain ⟨rfl, rfl⟩ := Prod.mk.inj (Except.ok.inj loop)
        exact ⟨[], nil_of_readRecord ended, trivial, rfl, by simp⟩
      · obtain ⟨rfl, _⟩ := Prod.mk.inj (Except.ok.inj loop)
        exact absurd (fresh.symm.trans accepted) Bool.false_ne_true
      · obtain ⟨rfl, _⟩ := Prod.mk.inj (Except.ok.inj loop)
        exact absurd (fresh.symm.trans accepted) Bool.false_ne_true
      · rename_i bytes rest' reads' full
        obtain ⟨length, rfl⟩ := full_of_readRecord full
        split at loop
        · obtain ⟨rfl, _⟩ := Prod.mk.inj (Except.ok.inj loop)
          exact absurd (fresh.symm.trans accepted) Bool.false_ne_true
        · rename_i passes
          simp only [bind, Except.bind] at loop
          split at loop
          · contradiction
          rename_i next applied
          obtain ⟨records, rfl, valid, body, count⟩ := ih loop fresh
          refine ⟨bytes :: records, rfl, ⟨length, passes, valid⟩, ?_, ?_⟩
          · simp only [foldRecords, applied, bind, Except.bind, body]
          · rw [count, add_one_add_ofNat, List.length_cons]

/-- What the loop returns for a file of leading valid records and a tail. -/
theorem readFile_of_leading (valid : ValidFrom 1 records)
    (stops : Stops tail (UInt64.ofNat records.length + 1))
    (body : foldRecords onRecord 1 records state = .ok final) (calm : NoReadFailure reads) :
    readFile onRecord (records.flatten ++ tail) reads state =
      .ok (({ records := UInt64.ofNat records.length } : ScanResult).stopped
        (stopError tail (UInt64.ofNat records.length + 1)), final) := by
  have enough : records.length < (records.flatten ++ tail).length + 1 := by
    rw [List.length_append, valid.length_flatten]
    simp only [kRecordSize]
    omega
  have start : ({} : ScanResult).records + UInt64.ofNat records.length =
      UInt64.ofNat records.length := UInt64.zero_add _
  rw [readFile, recordLoop_of_leading {} valid (by rwa [start]) body calm enough, start]

/-- What the loop returns for a file of valid records. -/
theorem readFile_of_valid (valid : ValidFrom 1 records)
    (body : foldRecords onRecord 1 records state = .ok final) (calm : NoReadFailure reads) :
    readFile onRecord records.flatten reads state =
      .ok ({ ok := true, records := UInt64.ofNat records.length }, final) := by
  have stops : Stops [] (UInt64.ofNat records.length + 1) := Or.inl rfl
  have read := readFile_of_leading valid stops body calm
  rwa [List.append_nil] at read

/-- The loop accepts a file only if it consists of valid records. -/
theorem valid_of_readFile {content : List UInt8} {result : ScanResult}
    (read : readFile onRecord content reads state = .ok (result, final))
    (accepted : result.ok = true) :
    ∃ records, content = records.flatten ∧ ValidFrom 1 records ∧
      foldRecords onRecord 1 records state = .ok final ∧
      result.records = UInt64.ofNat records.length := by
  obtain ⟨records, same, valid, body, count⟩ := valid_of_recordLoop read rfl accepted
  exact ⟨records, same, valid, body, by simpa using count⟩

end Loop

end Journal

end Lob
