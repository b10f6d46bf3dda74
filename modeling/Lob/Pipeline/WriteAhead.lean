import Lob.Pipeline.Logs

/-!
# The journal is ahead of everything that is published

A crash leaves the journal file as it is, or, when the power fails, some first part of it that
reaches at least to the last `fdatasync`. What replay makes of such a file follows from how
it treats valid records with a torn one behind them.
-/

namespace Lob

open Journal

/-! ### A file that was cut -/

namespace Journal

theorem stops_of_short {tail : List UInt8} (short : tail.length < kRecordSize) (ordinal : UInt64) :
    Stops tail ordinal := by
  by_cases empty : tail = []
  · exact Or.inl empty
  · refine Or.inr ?_
    rw [stopError, if_neg empty, if_pos short]
    exact Option.some_ne_none _

/-- A file cut after `n` bytes keeps its first records, every one that ends before the cut,
and less than a record behind them. -/
theorem ValidFrom.exists_take {first : UInt64} {records : List (List UInt8)}
    (valid : ValidFrom first records) {torn : List UInt8} (short : torn.length < kRecordSize)
    (n : Nat) :
    ∃ front back tail, records = front ++ back ∧
      (records.flatten ++ torn).take n = front.flatten ++ tail ∧ tail.length < kRecordSize ∧
      ∀ count ≤ records.length, kRecordSize * count ≤ n → count ≤ front.length := by
  induction records generalizing first n with
  | nil =>
      refine ⟨[], [], torn.take n, rfl, rfl, ?_, fun count none _ => none⟩
      rw [List.length_take]
      omega
  | cons record records ih =>
      obtain ⟨length, _, rest⟩ := valid
      by_cases early : n < kRecordSize
      · refine ⟨[], record :: records, _, rfl, rfl, ?_, fun count _ fits => ?_⟩
        · rw [List.length_take]
          omega
        · simp only [kRecordSize] at early fits
          omega
      · obtain ⟨front, back, tail, rfl, cut, shorter, kept⟩ := ih rest (n - kRecordSize)
        refine ⟨record :: front, back, tail, rfl, ?_, shorter, fun count most fits => ?_⟩
        · rw [List.flatten_cons, List.append_assoc, List.take_append, length, cut,
            List.take_of_length_le (by omega), List.flatten_cons, List.append_assoc]
        · cases count with
          | zero => exact Nat.zero_le _
          | succ count =>
              have inner := kept count (by simpa using most) (by
                rw [Nat.mul_succ] at fits
                omega)
              simpa using inner

end Journal

/-! ### After a crash -/

/-- Replay of what a crash has left of the file carries out the commands that survive, first
those that were there before the session. -/
structure CrashReplay (limits : RiskLimits) (content : List UInt8) (result : JournalReplayResult)
    (engine : MatchingEngine) (survivors : List Command) (answers : List Response) : Prop where
  run : (MatchingEngine.fresh limits).responses survivors = .ok answers
  engine : (MatchingEngine.fresh limits).lastEngine answers = engine
  ok : result.ok = true ↔ content.length = kRecordSize * survivors.length
  refused : result.ok = false → result.error = "truncated journal record" ∧
    result.errorOffset = UInt64.ofNat survivors.length * 48

theorem Journal.crashReplay_of_leading (limits : RiskLimits) {front : List (List UInt8)}
    {tail : List UInt8} (valid : ValidFrom 1 front) (short : tail.length < kRecordSize)
    {survivors : List Command} (decoded : front.map decodeCommand = survivors.map journaled)
    {reads : List ReadOutcome} (calm : NoReadFailure reads) :
    ∃ result engine answers,
      EventJournal.replay (some (front.flatten ++ tail)) none reads (.fresh limits) =
        .ok (result, engine) ∧
      CrashReplay limits (front.flatten ++ tail) result engine survivors answers := by
  have start : ({ engine := .fresh limits } : ReplayState).engine.Consistent :=
    consistent_fresh limits
  have stops := stops_of_short short (UInt64.ofNat front.length + 1)
  obtain ⟨final, body, reached, _⟩ := foldRecords_replayRecord start 1 front
  obtain ⟨answers, ran, _⟩ := (consistent_fresh limits).responses survivors
  have count : front.length = survivors.length := by
    have lengths := congrArg List.length decoded
    rwa [List.length_map, List.length_map] at lengths
  refine ⟨_, final.engine, answers,
    by rw [EventJournal.replay, readFile_of_leading valid stops body calm]; rfl, ran, ?_, ?_, ?_⟩
  · rw [decoded, runAll_journaled, MatchingEngine.runAll_of_responses ran] at reached
    exact Except.ok.inj reached
  · rw [replayResult, ScanResult.ok_stopped, stops.stopError_eq_none_iff, List.length_append,
      valid.length_flatten, count, Nat.add_eq_left, List.length_eq_zero_iff]
  · intro failed
    rw [replayResult] at failed ⊢
    have torn : tail ≠ [] := by
      rintro rfl
      exact absurd failed (by simp [stopError, ScanResult.stopped])
    simp [stopError, torn, short, ScanResult.stopped, ScanResult.fail, count]

namespace Pipeline

variable {orderCapacity tradeCapacity reportCapacity : PowerOfTwo}
  {state : Pipeline orderCapacity tradeCapacity reportCapacity}
  {main : EngineMain} {commands recovered logged : List Command} {answers : List Response}
  {records : List (List UInt8)} {torn : List UInt8}

/-- The commands of the records that a cut leaves: all that were secured, if the cut is
behind their records. -/
theorem Logs.exists_survivors (logs : state.Logs recovered records torn logged) (n : Nat) :
    ∃ front tail survivors, state.file.take n = front.flatten ++ tail ∧ ValidFrom 1 front ∧
      tail.length < kRecordSize ∧ front.map decodeCommand = survivors.map journaled ∧
      survivors <+: recovered ++ state.input.processed ++ logged ∧
      (∀ early, early <+: recovered ++ state.input.processed ++ logged →
        kRecordSize * early.length ≤ n → early <+: survivors) := by
  obtain ⟨front, back, tail, rfl, cut, short, kept⟩ := logs.valid.exists_take logs.short n
  have decoded := logs.decoded
  refine ⟨front, tail, (recovered ++ state.input.processed ++ logged).take front.length, ?_,
    (ValidFrom.append.mp logs.valid).1, short, ?_, List.take_prefix _ _, ?_⟩
  · rw [logs.file, cut]
  · rw [List.map_take, ← decoded, List.map_append, List.take_left' (List.length_map _)]
  · intro early isFront fits
    have most : early.length ≤ (front ++ back).length := by
      have length := isFront.length_le
      rw [List.length_append, List.length_append] at length
      rw [logs.length_records]
      omega
    exact List.prefix_take_iff.mpr ⟨isFront, kept early.length most fits⟩

/-- Only commands of the feed are journaled, and at most one that is not handled. -/
theorem Logs.logged_prefix (logs : state.Logs recovered records torn logged)
    (carries : state.input.Carries commands) :
    recovered ++ state.input.processed ++ logged <+: recovered ++ commands ∧
      logged.length ≤ 1 := by
  refine ⟨?_, logs.inHand.length_le.trans ?_⟩
  · rw [List.append_assoc]
    refine (List.prefix_append_right_inj _).mpr (List.IsPrefix.trans ?_ carries.taken_prefix)
    exact (List.prefix_append_right_inj _).mpr logs.inHand
  · cases state.input.engine with
    | processing command => exact Nat.le_refl 1
    | _ => exact Nat.zero_le 1

/-- The record of a secured command is complete. -/
theorem Logs.secured_prefix (logs : state.Logs recovered records torn logged) :
    state.secured <+: state.input.processed ++ logged := by
  have keeps := logs.stage
  unfold secured
  cases stage : state.stage with
  | applying _ => rw [stage] at keeps; rw [keeps.1]; exact List.prefix_rfl
  | publishing _ => rw [stage] at keeps; rw [keeps.1]; exact List.prefix_rfl
  | counting _ _ => rw [stage] at keeps; rw [keeps.1]; exact List.prefix_rfl
  | _ => exact (List.prefix_append_right_inj _).mpr List.nil_prefix

/-- Whatever is left of the file after a crash, replay carries out a first part of the
commands and finds nothing wrong but a torn record. If the process was killed, the file is
whole; if the power failed under `--sync-journal`, it is whole up to the last sync. In both
cases replay gives every trade and every report again that was ever pushed, and a killed
process has at most one command in its journal that it has not handled. -/
theorem crash_keeps_published {args : MainArgs} {file : Option (List UInt8)} {main : EngineMain}
    (started : EngineMain.start args file = .ok (some main)) (journaling : args.journal ≠ .off)
    (loopArgs : LoopArgs) (commands : List Command)
    (region : Region orderCapacity tradeCapacity reportCapacity) (events : List PipelineEvent)
    (n : Nat) {reads : List ReadOutcome} (calm : NoReadFailure reads) :
    let state := Schedule.run (step loopArgs) (initial main commands region) events
    ∃ recovered survivors result engine answers, args.Recovered file recovered ∧
      survivors <+: recovered ++ commands ∧
      EventJournal.replay (some (state.file.take n)) none reads (.fresh args.riskLimits) =
        .ok (result, engine) ∧
      CrashReplay args.riskLimits (state.file.take n) result engine survivors answers ∧
      (state.file.length ≤ n ∨ args.session.syncJournal = true ∧ state.synced ≤ n →
        state.output.reportQueue.pushed <+:
          (answers.drop recovered.length).map Response.report ∧
        state.output.tradeQueue.pushed <+:
          (answers.drop recovered.length).flatMap Response.outTrades) ∧
      (state.file.length ≤ n → recovered ++ state.input.processed <+: survivors ∧
        survivors.length ≤ recovered.length + state.input.processed.length + 1) := by
  intro state
  obtain ⟨_, recovered, source, running⟩ := EngineMain.running_start started
  obtain ⟨durability, records, tracks, decoded⟩ :=
    EngineMain.tracks_of_start started journaling source
  obtain ⟨handled, records', torn, logged, flows, logs⟩ : ∃ handled records' torn logged,
      state.Flows main commands handled ∧ state.Logs recovered records' torn logged :=
    exists_logs tracks decoded running.consistent loopArgs commands region events
  obtain ⟨front, tail, survivors, cut, valid, short, same, isFront, kept⟩ :=
    logs.exists_survivors n
  obtain ⟨feedOnly, one⟩ := logs.logged_prefix flows.carries
  obtain ⟨result, engine, answers, replayed, crash⟩ :=
    crashReplay_of_leading args.riskLimits valid short same calm
  rw [← cut] at replayed crash
  have room := logs.length_file
  refine ⟨recovered, survivors, result, engine, answers, source, isFront.trans feedOnly, replayed,
    crash, fun survives => ?_, fun whole => ⟨?_, ?_⟩⟩
  · obtain ⟨answered, ran, reports, trades⟩ := flows.pushed_prefix
    obtain ⟨earlier, ranEarlier, reached, _⟩ := running.follows
    by_cases none : state.secured = []
    · -- nothing was pushed
      rw [none] at ran
      obtain rfl := Except.ok.inj ran
      rw [List.prefix_nil.mp reports, List.prefix_nil.mp trades]
      exact ⟨List.nil_prefix, List.nil_prefix⟩
    have fits : kRecordSize * (recovered ++ state.secured).length ≤ n := by
      rw [List.length_append]
      rcases survives with whole | ⟨sync, upTo⟩
      · have secured := logs.secured_prefix.length_le
        rw [List.length_append] at secured
        exact (Nat.mul_le_mul_left _ (by omega)).trans (room.trans whole)
      · refine (logs.synced ?_ none).trans upTo
        rw [run_durability]
        exact durability.trans (by simp [Session.durability, sync])
    have inside : recovered ++ state.secured <+: recovered ++ state.input.processed ++ logged := by
      rw [List.append_assoc]
      exact (List.prefix_append_right_inj _).mpr logs.secured_prefix
    obtain ⟨rest, rfl⟩ := kept _ inside fits
    have ranBoth := MatchingEngine.responses_append ranEarlier (by rw [reached]; exact ran)
    obtain ⟨first, later, rfl, _, ranFirst, _⟩ := MatchingEngine.responses_split crash.run
    obtain rfl := Except.ok.inj (ranBoth.symm.trans ranFirst)
    have length : earlier.length = recovered.length := by
      obtain ⟨_, ran', length'⟩ := (consistent_fresh args.riskLimits).responses recovered
      obtain rfl := Except.ok.inj (ranEarlier.symm.trans ran')
      exact length'
    rw [List.append_assoc, List.drop_left' length]
    refine ⟨reports.trans ?_, trades.trans ?_⟩
    · rw [List.map_append]
      exact List.prefix_append _ _
    · rw [List.flatMap_append]
      exact List.prefix_append _ _
  · refine kept _ (List.prefix_append _ _) ?_
    rw [List.length_append]
    exact (Nat.mul_le_mul_left _ (Nat.le_add_right _ _)).trans (room.trans whole)
  · have length := isFront.length_le
    rw [List.length_append, List.length_append] at length
    omega

/-- Killed in the middle of its second record, after the report of the first command was
pushed: replay stops in front of the torn record and has that command. -/
theorem crash_in_second_record :
    let two : PowerOfTwo := { value := 2, powerOfTwo := by decide, positive := by decide }
    let region : Region two two two := .constructed
    let events : List PipelineEvent :=
      List.replicate 8 .feed ++ List.replicate 21 (.engine {}) ++
        [.engine { write := .wrote 20 }, .kill]
    ∃ main, EngineMain.start { journal := .truncate } none = .ok (some main) ∧
      let state := Schedule.run (step { idleExitMs := 0, syncJournal := false })
        (initial main [.cancel 7, .cancel 8] region) events
      state.file.length = 68 ∧ state.output.reportQueue.pushed.length = 1 ∧
        ∃ survivors result engine answers,
          EventJournal.replay (some (state.file.take 68)) none [] (.fresh {}) =
            .ok (result, engine) ∧
          CrashReplay {} (state.file.take 68) result engine survivors answers ∧
          state.output.reportQueue.pushed <+: answers.map Response.report := by
  intro two region events
  have started : EngineMain.start { journal := .truncate } none = .ok (some _) := rfl
  refine ⟨_, started, ?_⟩
  intro state
  have length : state.file.length = 68 := by decide +kernel
  refine ⟨length, by decide +kernel, ?_⟩
  have calm : NoReadFailure [] := fun _ inNil => absurd inNil List.not_mem_nil
  obtain ⟨recovered, survivors, result, engine, answers, source, _, replayed, crash, pushed, _⟩ :=
    crash_keeps_published started (by decide) { idleExitMs := 0, syncJournal := false }
      [.cancel 7, .cancel 8] region events 68 calm
  obtain rfl : recovered = [] := source
  exact ⟨survivors, result, engine, answers, replayed, crash,
    (pushed (Or.inl (Nat.le_of_eq length))).1⟩

end Pipeline

end Lob
