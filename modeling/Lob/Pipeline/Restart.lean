import Lob.Pipeline.WriteAhead

/-!
# One engine process after another

The system goes down and comes up again any number of times: the engine process is killed
at any step, or ends, and the next one recovers the file that it left. The region is built
anew, so a viewer may miss what was in the queues. But what the viewers of all these lives
have received, taken together, is a part of what one uninterrupted run over the journaled
commands publishes, in its order and without repetition.
-/

namespace Lob

open Journal

/-- One life of the system: how the engine process starts, what the feed has to send, and
what happens. -/
structure Life where
  session : Session := {}
  idleExitMs : Int := 0
  commands : List Command := []
  events : List PipelineEvent := []

namespace Life

variable {orderCapacity tradeCapacity reportCapacity : PowerOfTwo}

/-- The arguments of the engine process; all but the first recover. -/
def mainArgs (life : Life) (limits : RiskLimits) (recover : Bool) : MainArgs where
  riskLimits := limits
  journal := if recover then .recover else .truncate
  session := life.session

/-- Where the life ends, given what the engine process has come up with. -/
def final (life : Life) (main : EngineMain) : Pipeline orderCapacity tradeCapacity reportCapacity :=
  Schedule.run
    (Pipeline.step { idleExitMs := life.idleExitMs, syncJournal := life.session.syncJournal })
    (Pipeline.initial main life.commands .constructed) life.events

end Life

variable {orderCapacity tradeCapacity reportCapacity : PowerOfTwo}

/-- How one life after another ends. A process that does not come up is the last. -/
def runLives (limits : RiskLimits) :
    Bool → Option (List UInt8) → List Life →
      List (Pipeline orderCapacity tradeCapacity reportCapacity)
  | _, _, [] => []
  | recover, file, life :: lives =>
      match EngineMain.start (life.mainArgs limits recover) file with
      | .ok (some main) =>
          life.final main :: runLives limits true (some (life.final main : Pipeline orderCapacity
            tradeCapacity reportCapacity).file) lives
      | _ => []

/-- What the viewers have received. -/
def reportsReceived (states : List (Pipeline orderCapacity tradeCapacity reportCapacity)) :
    List ExecutionReport :=
  states.flatMap (fun state => state.output.reportQueue.popped)

def tradesReceived (states : List (Pipeline orderCapacity tradeCapacity reportCapacity)) :
    List Trade :=
  states.flatMap (fun state => state.output.tradeQueue.popped)

/-! ### What the next process recovers -/

/-- A process that comes up from this file recovers these commands, up to what the journal
does not keep. -/
def Hands (limits : RiskLimits) (recover : Bool) (file : Option (List UInt8))
    (commands : List Command) : Prop :=
  ∀ (life : Life) (recovered : List Command),
    (life.mainArgs limits recover).Recovered file recovered →
      recovered.map journaled = commands.map journaled

theorem hands_truncate (limits : RiskLimits) (file : Option (List UInt8)) :
    Hands limits false file [] := by
  intro life recovered recovers
  obtain rfl : recovered = [] := recovers
  rfl

/-- Two ways to cut a file into records, one of them with a torn record behind, agree. -/
theorem Journal.ValidFrom.unique {records records' : List (List UInt8)} {torn : List UInt8}
    (valid : ValidFrom 1 records) (valid' : ValidFrom 1 records')
    (short : torn.length < kRecordSize) (same : records'.flatten = records.flatten ++ torn) :
    records'.map decodeCommand = records.map decodeCommand := by
  have none : torn = [] := by
    have length := congrArg List.length same
    rw [List.length_append, valid.length_flatten, valid'.length_flatten] at length
    simp only [kRecordSize] at length short
    exact List.length_eq_zero_iff.mp (by omega)
  rw [none, List.append_nil] at same
  have calm : NoReadFailure [] := fun _ inNil => absurd inNil List.not_mem_nil
  rw [← appliedCommands_of_valid valid calm, ← appliedCommands_of_valid valid' calm, same]

theorem Pipeline.Logs.hands {state : Pipeline orderCapacity tradeCapacity reportCapacity}
    {recovered logged : List Command} {records : List (List UInt8)} {torn : List UInt8}
    (logs : state.Logs recovered records torn logged) (limits : RiskLimits) :
    Hands limits true (some state.file) (recovered ++ state.input.processed ++ logged) := by
  rintro life later ⟨records', same, valid, rfl⟩
  rw [map_journaled_decodeCommand, ← logs.decoded]
  refine ValidFrom.unique logs.valid valid logs.short ?_
  rw [← logs.file]
  exact (Option.some.inj same).symm

/-! ### The lives together -/

/-- A life passes on the commands that it has found and those that it has journaled, and its
viewer has received the first of their answers. -/
theorem Life.final_hands {limits : RiskLimits} {recover : Bool} {file : Option (List UInt8)}
    {life : Life} {main : EngineMain}
    {state : Pipeline orderCapacity tradeCapacity reportCapacity}
    (started : EngineMain.start (life.mainArgs limits recover) file = .ok (some main))
    (ends : life.final main = state) {commands : List Command} {earlier : List Response}
    (hands : Hands limits recover file commands)
    (run : (MatchingEngine.fresh limits).responses commands = .ok earlier) :
    ∃ added answers, added <+: life.commands ∧
      Hands limits true (some state.file) (commands ++ added) ∧
      (MatchingEngine.fresh limits).responses (commands ++ added) = .ok (earlier ++ answers) ∧
      state.output.reportQueue.popped <+: answers.map Response.report ∧
      state.output.tradeQueue.popped <+: answers.flatMap Response.outTrades := by
  have journaling : (life.mainArgs limits recover).journal ≠ .off := by
    cases recover <;> exact JournalArgs.noConfusion
  obtain ⟨_, recovered, source, running⟩ := EngineMain.running_start started
  obtain ⟨_, records, tracks, decoded⟩ := EngineMain.tracks_of_start started journaling source
  obtain ⟨handled, records', torn, logged, flows, logs⟩ : ∃ handled records' torn logged,
      state.Flows main life.commands handled ∧ state.Logs recovered records' torn logged := by
    rw [← ends]
    exact Pipeline.exists_logs tracks decoded running.consistent _ life.commands _ life.events
  have kept := hands life recovered source
  -- the engine that was recovered is the one that has carried out `commands`
  obtain ⟨earlier', ranEarlier, reached, _⟩ := running.follows
  rw [← responses_journaled, kept, responses_journaled] at ranEarlier
  obtain rfl := Except.ok.inj (run.symm.trans ranEarlier)
  replace reached : (MatchingEngine.fresh limits).lastEngine earlier = main.engine := reached
  obtain ⟨answers, ran, _⟩ :=
    running.consistent.responses (state.input.processed ++ logged)
  obtain ⟨answered, ranSecured, reports, trades⟩ := flows.pushed_prefix
  have front : answered <+: answers :=
    MatchingEngine.responses_prefix logs.secured_prefix ranSecured ran
  refine ⟨_, answers, ?_, ?_, MatchingEngine.responses_append run (by rw [reached]; exact ran), ?_,
    ?_⟩
  · have front := (logs.logged_prefix flows.carries).1
    rwa [List.append_assoc, List.prefix_append_right_inj] at front
  · intro next later recovers
    rw [logs.hands limits next later recovers, List.append_assoc, List.map_append, kept,
      ← List.map_append]
  · exact flows.output.reports.lossless.popped_prefix.trans (reports.trans (front.map _))
  · obtain ⟨later, rfl⟩ := front
    rw [List.flatMap_append]
    exact flows.output.trades.lossless.popped_prefix.trans
      (trades.trans (List.prefix_append _ _))

theorem runLives_sublist (limits : RiskLimits) (lives : List Life) {recover : Bool}
    {file : Option (List UInt8)} {commands : List Command} {earlier : List Response}
    (hands : Hands limits recover file commands)
    (run : (MatchingEngine.fresh limits).responses commands = .ok earlier) :
    ∃ added answers, added.Sublist (lives.flatMap Life.commands) ∧
      (MatchingEngine.fresh limits).responses (commands ++ added) = .ok (earlier ++ answers) ∧
      (reportsReceived (runLives limits recover file lives : List (Pipeline orderCapacity
        tradeCapacity reportCapacity))).Sublist (answers.map Response.report) ∧
      (tradesReceived (runLives limits recover file lives : List (Pipeline orderCapacity
        tradeCapacity reportCapacity))).Sublist (answers.flatMap Response.outTrades) := by
  induction lives generalizing recover file commands earlier with
  | nil => exact ⟨[], [], List.nil_sublist _, by simpa using run, List.nil_sublist _,
      List.nil_sublist _⟩
  | cons life lives ih =>
      unfold runLives
      split
      · rename_i main started
        obtain ⟨added, answers, sent, hands', run', reports, trades⟩ :=
          life.final_hands started rfl hands run
        obtain ⟨later, answersLater, sentLater, runLater, reportsLater, tradesLater⟩ :=
          ih hands' run'
        refine ⟨added ++ later, answers ++ answersLater, sent.sublist.append sentLater, ?_, ?_, ?_⟩
        · rw [← List.append_assoc, ← List.append_assoc]
          exact runLater
        · rw [List.map_append]
          exact reports.sublist.append reportsLater
        · rw [List.flatMap_append]
          exact trades.sublist.append tradesLater
      · exact ⟨[], [], List.nil_sublist _, by simpa using run, List.nil_sublist _,
          List.nil_sublist _⟩

/-- However often the engine process is killed or ends and the next one recovers its file,
what the viewers have received is a part of what one run over some of the feeds' commands
publishes, in the order of that run. So no sequence number and no trade id is ever received
twice, and they increase from life to life. -/
theorem lives_never_repeat (limits : RiskLimits) (file : Option (List UInt8))
    (lives : List Life) :
    let states : List (Pipeline orderCapacity tradeCapacity reportCapacity) :=
      runLives limits false file lives
    ∃ commands answers, commands.Sublist (lives.flatMap Life.commands) ∧
      (MatchingEngine.fresh limits).responses commands = .ok answers ∧
      (reportsReceived states).Sublist (answers.map Response.report) ∧
      (tradesReceived states).Sublist (answers.flatMap Response.outTrades) ∧
      ((lives.flatMap Life.commands).length < 2 ^ 64 →
        (reportsReceived states).Pairwise (fun a b => a.sequence < b.sequence)) ∧
      ((answers.flatMap Response.outTrades).length < 2 ^ 64 →
        (tradesReceived states).Pairwise (fun a b => a.tradeId < b.tradeId)) := by
  intro states
  obtain ⟨commands, answers, sent, run, reports, trades⟩ :=
    runLives_sublist limits lives (hands_truncate limits file) rfl
  rw [List.nil_append, List.nil_append] at run
  refine ⟨commands, answers, sent, run, reports, trades, fun room => ?_, fun room => ?_⟩
  · refine List.Pairwise.sublist reports (List.pairwise_map.mpr ?_)
    have count : (MatchingEngine.fresh limits).sequence.toNat + commands.length < 2 ^ 64 := by
      have start : (MatchingEngine.fresh limits).sequence.toNat = 0 := rfl
      have most := sent.length_le
      omega
    exact (MatchingEngine.responses_sequences run count).2
  · have ids : ((answers.flatMap Response.outTrades).map Trade.tradeId).Pairwise (· < ·) := by
      rw [((consistent_fresh limits).tradeIds run).1]
      refine Reference.numbered_increasing ?_
      have first : (MatchingEngine.fresh limits).nextTradeId.toNat = 1 := rfl
      omega
    exact List.Pairwise.sublist trades (List.pairwise_map.mp ids)

end Lob
