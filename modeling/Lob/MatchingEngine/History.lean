import Lob.MatchingEngine.Refinement
import Lob.MatchingEngine.Run
import Lob.Reference.Ledger

/-!
# Runs with their history

Every run of a fresh engine is followed by a reference engine whose state its history
explains. This is the form in which facts about the reference reach the engine: the
unconditional part holds for runs of any length, and the part about exact totals,
sequence numbers and balances for runs of fewer than `2^32` commands.
-/

namespace Lob

/-- The events of a run: its commands with their reports. -/
def history (commands : List Command) (responses : List Response) : List Event :=
  List.zipWith (fun command response => ⟨command, response.report⟩) commands responses

theorem history_concat {commands : List Command} {responses : List Response}
    (same : responses.length = commands.length) (command : Command) (response : Response) :
    history (commands ++ [command]) (responses ++ [response]) =
      history commands responses ++ [⟨command, response.report⟩] := by
  rw [history, List.zipWith_append same.symm]
  rfl

/-- What holds between an engine, the reference that follows it and the history of a
short run. -/
structure ShortRun (reference : Reference) (events : List Event) (trades : List Trade) : Prop where
  stamped : reference.Stamped
  sequence : reference.sequence.toNat = events.length
  balanced : reference.Balanced events trades

/-- The engine after a run, the reference that follows it and the history of the run. -/
structure Follows (engine : MatchingEngine) (reference : Reference) (events : List Event)
    (trades : List Trade) : Prop where
  simulates : Simulates engine reference
  sound : reference.Sound
  recorded : reference.Recorded events trades
  short : events.length < 2 ^ 32 → ShortRun reference events trades

theorem follows_fresh (limits : RiskLimits) : Follows (.fresh limits) (.fresh limits) [] [] :=
  ⟨simulates_fresh limits, Reference.sound_fresh limits, Reference.recorded_fresh limits,
    fun _ => ⟨Reference.stamped_fresh limits, rfl, Reference.balanced_fresh limits⟩⟩

section Step

variable {engine : MatchingEngine} {reference : Reference} {events : List Event}
  {trades : List Trade}

theorem ShortRun.live_length_lt (run : ShortRun reference events trades)
    (short : events.length < 2 ^ 32) : reference.live.length < 2 ^ 32 := by
  have length := run.stamped.length
  have sequence := run.sequence
  omega

/-- One more command of a run: the engine takes a step of the reference, with the exact
preflight answer while the run is short. -/
theorem Follows.step (follows : Follows engine reference events trades) (command : Command) :
    ∃ response shortfall reference', engine.apply command trades = .ok response ∧
      (events.length < 2 ^ 32 → shortfall = reference.exactShortfall command) ∧
      reference.Step trades command shortfall ⟨reference', response.report, response.outTrades⟩ ∧
      Follows response.engine reference' (events ++ [⟨command, response.report⟩])
        response.outTrades := by
  obtain ⟨response, applied, agrees⟩ := follows.simulates.apply follows.sound command trades
  obtain ⟨shortfall, exactly, same⟩ : ∃ shortfall,
      (events.length < 2 ^ 32 → shortfall = reference.exactShortfall command) ∧
      reference.applyWith command (engine.shortfall command) trades =
        reference.applyWith command shortfall trades := by
    by_cases short : events.length < 2 ^ 32
    · have few := (follows.short short).live_length_lt short
      exact ⟨_, fun _ => rfl, follows.simulates.applyWith_shortfall few command trades⟩
    · exact ⟨_, fun short' => absurd short' short, rfl⟩
  rw [same] at agrees
  have step := reference.applyWith_step command shortfall trades
  rw [← show (⟨_, response.report, response.outTrades⟩ : Reference.Response) =
    reference.applyWith command shortfall trades by rw [agrees.report, agrees.outTrades]] at step
  have sound := follows.sound.step step
  have recorded := follows.recorded.step step
  refine ⟨response, shortfall, _, applied, exactly, step, agrees.engine, sound, recorded, ?_⟩
  rw [List.length_append, List.length_singleton]
  intro short
  have run := follows.short (by omega)
  have room : reference.sequence.toNat + 1 < 2 ^ 64 := by
    have sequence := run.sequence
    omega
  have stamped := run.stamped.step room step
  have sequence := step.sequence
  refine ⟨stamped, ?_, ?_⟩
  · rw [sequence, Reference.toNat_sequence_add_one room, run.sequence, List.length_append,
      List.length_singleton]
  · obtain rfl := exactly (by omega)
    have balanced := run.balanced.step follows.sound step
    exact balanced

theorem Follows.apply (follows : Follows engine reference events trades) (command : Command) :
    ∃ response, engine.apply command trades = .ok response ∧
      ∃ reference', Follows response.engine reference' (events ++ [⟨command, response.report⟩])
        response.outTrades := by
  obtain ⟨response, _, reference', applied, _, _, follows'⟩ := follows.step command
  exact ⟨response, applied, reference', follows'⟩

end Step

theorem exists_of_map_eq_ok {ε α β : Type} {f : α → β} {result : Except ε α} {b : β}
    (mapped : result.map f = .ok b) : ∃ a, result = .ok a ∧ f a = b := by
  cases result with
  | error fault => contradiction
  | ok a => exact ⟨a, rfl, Except.ok.inj mapped⟩

/-- Every run of a fresh engine is free of faults and followed by a reference. -/
theorem exists_follows (limits : RiskLimits) (commands : List Command) :
    ∃ responses, (MatchingEngine.fresh limits).trace commands [] = .ok responses ∧
      responses.length = commands.length ∧
      ∃ reference, Follows ((MatchingEngine.fresh limits).lastEngine responses) reference
        (history commands responses) (MatchingEngine.lastTrades [] responses) := by
  refine MatchingEngine.trace_induction
    (P := fun before responses => responses.length = before.length ∧
      ∃ reference, Follows ((MatchingEngine.fresh limits).lastEngine responses) reference
        (history before responses) (MatchingEngine.lastTrades [] responses))
    ⟨rfl, _, follows_fresh limits⟩ commands ?_
  rintro before responses command _ ⟨length, reference, follows⟩
  obtain ⟨response, applied, reference', follows'⟩ := follows.apply command
  refine ⟨response, applied, by simp [length], reference', ?_⟩
  rwa [history_concat length, MatchingEngine.lastEngine_concat, MatchingEngine.lastTrades_concat]

/-- The rule for runs in which each command has a trade vector of its own. `P` is a fact
about the reference that follows the run, its history and all its trades; `Q` is a fact
about each command and its response. -/
theorem responses_induction {P : Reference → List Event → List Trade → Prop}
    {Q : Command → Response → Prop} (limits : RiskLimits) (start : P (.fresh limits) [] [])
    (commands : List Command)
    (step : ∀ engine reference events trades command shortfall reference' (answer : Response),
      events.length < commands.length → Follows engine reference events trades →
      P reference events trades →
      (events.length < 2 ^ 32 → shortfall = reference.exactShortfall command) →
      reference.Step trades command shortfall
        ⟨reference', answer.report, trades ++ answer.outTrades⟩ →
      Follows answer.engine reference' (events ++ [⟨command, answer.report⟩])
        (trades ++ answer.outTrades) →
      P reference' (events ++ [⟨command, answer.report⟩]) (trades ++ answer.outTrades) ∧
        Q command answer) :
    ∃ answers, (MatchingEngine.fresh limits).responses commands = .ok answers ∧
      List.Forall₂ Q commands answers ∧
      ∃ reference, Follows ((MatchingEngine.fresh limits).lastEngine answers) reference
          (history commands answers) (answers.flatMap Response.outTrades) ∧
        P reference (history commands answers) (answers.flatMap Response.outTrades) := by
  induction commands using List.reverseRecOn with
  | nil => exact ⟨[], rfl, .nil, _, follows_fresh limits, start⟩
  | append_singleton commands command ih =>
      rw [List.length_append, List.length_singleton] at step
      obtain ⟨answers, run, known, reference, follows, holds⟩ :=
        ih (fun engine reference events trades command shortfall reference' answer shorter =>
          step engine reference events trades command shortfall reference' answer
            (Nat.lt_succ_of_lt shorter))
      have length : answers.length = commands.length := known.length_eq.symm
      obtain ⟨response, shortfall, reference', applied, exactly, taken, follows'⟩ :=
        follows.step command
      rw [MatchingEngine.apply_prepend] at applied
      obtain ⟨answer, own, rfl⟩ := exists_of_map_eq_ok applied
      obtain ⟨holds', one⟩ := step _ reference _ _ command shortfall reference' answer
        (by rw [history, List.length_zipWith, length]; omega) follows holds exactly taken follows'
      refine ⟨answers ++ [answer], MatchingEngine.responses_concat run own,
        List.rel_append known (.cons one .nil), reference', ?_, ?_⟩
      · rw [history_concat length, MatchingEngine.lastEngine_concat, List.flatMap_append,
          List.flatMap_singleton]
        exact follows'
      · rw [history_concat length, List.flatMap_append, List.flatMap_singleton]
        exact holds'

/-- The rule for the states of a run of any length: what every step keeps holds of a
reference that agrees with the final state. While few orders are live, a step has the
exact preflight answer. -/
theorem Simulates.runAll {engine : MatchingEngine} {reference : Reference}
    (sim : Simulates engine reference) (sound : reference.Sound) {P : Reference → Prop}
    (start : P reference)
    (step : ∀ (reference : Reference) (command : Command) (shortfall : Bool)
      (response : Reference.Response), reference.Sound → P reference →
      (reference.live.length < 2 ^ 32 → shortfall = reference.exactShortfall command) →
      reference.Step [] command shortfall response → P response.engine)
    (commands : List Command) :
    ∃ final reference', engine.runAll commands = .ok final ∧ Simulates final reference' ∧
      reference'.Sound ∧ P reference' := by
  induction commands generalizing engine reference with
  | nil => exact ⟨engine, reference, rfl, sim, sound, start⟩
  | cons command commands ih =>
      obtain ⟨response, applied, agrees⟩ := sim.apply sound command []
      obtain ⟨shortfall, exactly, taken⟩ : ∃ shortfall,
          (reference.live.length < 2 ^ 32 → shortfall = reference.exactShortfall command) ∧
          reference.Step [] command shortfall
            (reference.applyWith command (engine.shortfall command) []) := by
        by_cases few : reference.live.length < 2 ^ 32
        · refine ⟨_, fun _ => rfl, ?_⟩
          rw [sim.applyWith_shortfall few command []]
          exact reference.applyWith_step command _ []
        · exact ⟨_, fun few' => absurd few' few, reference.applyWith_step command _ []⟩
      obtain ⟨final, reference', reached, sim', sound', last⟩ :=
        ih agrees.engine (sound.step taken) (step reference command _ _ sound start exactly taken)
      refine ⟨final, reference', ?_, sim', sound', last⟩
      simp only [MatchingEngine.runAll, applied, bind, Except.bind, reached]

/-- A short run leads to the state that agrees with the flat-list engine after it. -/
theorem Refines.runAll_reference {engine : MatchingEngine} {reference : Reference}
    (refines : Refines engine reference) (commands : List Command)
    (room : reference.sequence.toNat + commands.length < 2 ^ 32) :
    ∃ final, engine.runAll commands = .ok final ∧ Refines final (reference.runAll commands) ∧
      (reference.runAll commands).sequence.toNat =
        reference.sequence.toNat + commands.length := by
  induction commands generalizing engine reference with
  | nil => exact ⟨engine, rfl, refines, rfl⟩
  | cons command commands ih =>
      rw [List.length_cons] at room ⊢
      obtain ⟨response, applied, _, _, refines', sequence⟩ := refines.apply (by omega) command []
      obtain ⟨final, reached, last, count⟩ := ih refines' (by omega)
      refine ⟨final, ?_, last, ?_⟩
      · simp only [MatchingEngine.runAll, applied, bind, Except.bind, reached]
      · rw [Reference.runAll, count]
        omega

theorem Refines.runAll {engine : MatchingEngine} {reference : Reference}
    (refines : Refines engine reference) (commands : List Command)
    (room : reference.sequence.toNat + commands.length < 2 ^ 32) :
    ∃ final reference', engine.runAll commands = .ok final ∧ Refines final reference' ∧
      reference'.sequence.toNat = reference.sequence.toNat + commands.length := by
  obtain ⟨final, reached, last, count⟩ := refines.runAll_reference commands room
  exact ⟨final, _, reached, last, count⟩

/-- Every short run leads to a state that agrees with a sound reference in which few
orders are live. -/
theorem exists_refines (limits : RiskLimits) (commands : List Command)
    (short : commands.length < 2 ^ 32) :
    ∃ engine reference, (MatchingEngine.fresh limits).runAll commands = .ok engine ∧
      Simulates engine reference ∧ reference.Sound ∧ reference.live.length < 2 ^ 32 := by
  obtain ⟨engine, reference, reached, refines, count⟩ :=
    (refines_fresh limits).runAll commands (by simpa [Reference.fresh] using short)
  have length := refines.stamped.length
  have start : (Reference.fresh limits).sequence.toNat = 0 := rfl
  exact ⟨engine, reference, reached, refines.simulates, refines.sound, by omega⟩

theorem length_history {commands : List Command} {responses : List Response}
    (same : responses.length = commands.length) :
    (history commands responses).length = commands.length := by
  simp [history, same]

end Lob
