import Lob.MatchingEngine.Counters
import Lob.MatchingEngine.WellFormed

/-!
# The consistency check on long runs

The sequence numbers of a level ascend as long as the engine has not counted `2 ^ 64` events,
and then `checkInvariants` passes, also where the totals have wrapped.
-/

namespace Lob

namespace MatchingEngine

variable {engine : MatchingEngine} {events : Nat}

/-- The engine has counted so many events and agrees with a stamped live list. -/
def Counted (engine : MatchingEngine) (events : Nat) : Prop :=
  ∃ reference, Refines engine reference ∧ engine.sequence.toNat = events

theorem counted_fresh (limits : RiskLimits) : (fresh limits).Counted 0 :=
  ⟨_, refines_fresh limits, rfl⟩

theorem Counted.checkInvariants (counted : engine.Counted events) :
    engine.book.checkInvariants = true := by
  obtain ⟨_, refines, _⟩ := counted
  exact refines.checkInvariants

theorem Counted.apply (counted : engine.Counted events) (room : events + 1 < 2 ^ 64)
    (command : Command) (outTrades : List Trade) :
    ∃ response, engine.apply command outTrades = .ok response ∧
      response.engine.Counted (events + 1) := by
  obtain ⟨reference, refines, rfl⟩ := counted
  obtain ⟨response, applied, agrees⟩ := refines.simulates.apply refines.sound command outTrades
  have step := reference.applyWith_step command (engine.shortfall command) outTrades
  obtain ⟨nodes, sim⟩ := refines.simulates
  obtain ⟨nodes', sim'⟩ := agrees.engine
  rw [sim.sequence] at room
  refine ⟨response, applied, _,
    ⟨agrees.engine, refines.sound.step step, refines.stamped.step room step⟩, ?_⟩
  rw [sim'.sequence, step.sequence, Reference.toNat_sequence_add_one room, sim.sequence]

/-- Every state of a run of fewer than `2 ^ 64` commands passes the check. -/
theorem Counted.responses (counted : engine.Counted events) {commands : List Command}
    (room : events + commands.length < 2 ^ 64) {answers : List Response}
    (run : engine.responses commands = .ok answers) :
    ∀ answer ∈ answers, answer.engine.book.checkInvariants = true := by
  induction commands generalizing engine events answers with
  | nil =>
      obtain rfl := Except.ok.inj run
      exact fun _ member => absurd member List.not_mem_nil
  | cons command commands ih =>
      obtain ⟨answer, later, rfl, applied, rest⟩ := responses_cons run
      rw [List.length_cons] at room
      obtain ⟨response, applied', counted'⟩ := counted.apply (by omega) command []
      obtain rfl := Except.ok.inj (applied.symm.trans applied')
      rintro other (_ | ⟨_, member⟩)
      · exact counted'.checkInvariants
      · exact ih counted' (by omega) rest other member

end MatchingEngine

end Lob
