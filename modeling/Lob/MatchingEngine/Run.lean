import Lob.MatchingEngine

/-!
# Runs of the matching engine

A run is a list of commands, and `trace` is its list of responses. Facts about the
state that a run leads to, or about the history it leaves, are proved by adding one
command at the end. `responses` gives each command a trade vector of its own, and `runAll`
keeps the final state only.
-/

namespace Lob

/-- The response with more trades in front of its own. -/
def Response.prepend (earlier : List Trade) (response : Response) : Response :=
  { response with outTrades := earlier ++ response.outTrades }

end Lob

namespace Lob.MatchingEngine

variable {engine : MatchingEngine}

/-- The engine after a run that started in `engine`. -/
def lastEngine (engine : MatchingEngine) (responses : List Response) : MatchingEngine :=
  (responses.getLast?.map Response.engine).getD engine

/-- The caller's trade vector after a run that started with `outTrades`. -/
def lastTrades (outTrades : List Trade) (responses : List Response) : List Trade :=
  (responses.getLast?.map Response.outTrades).getD outTrades

@[simp] theorem lastEngine_nil (engine : MatchingEngine) : engine.lastEngine [] = engine := rfl

@[simp] theorem lastTrades_nil (outTrades : List Trade) : lastTrades outTrades [] = outTrades := rfl

@[simp] theorem lastEngine_concat (engine : MatchingEngine) (responses : List Response)
    (response : Response) :
    engine.lastEngine (responses ++ [response]) = response.engine := by
  simp [lastEngine]

@[simp] theorem lastTrades_concat (outTrades : List Trade) (responses : List Response)
    (response : Response) :
    lastTrades outTrades (responses ++ [response]) = response.outTrades := by
  simp [lastTrades]

theorem lastEngine_cons (engine : MatchingEngine) (response : Response)
    (responses : List Response) :
    engine.lastEngine (response :: responses) = response.engine.lastEngine responses := by
  cases responses <;> simp [lastEngine, List.getLast?_cons]

theorem lastTrades_cons (outTrades : List Trade) (response : Response)
    (responses : List Response) :
    lastTrades outTrades (response :: responses) = lastTrades response.outTrades responses := by
  cases responses <;> simp [lastTrades, List.getLast?_cons]

theorem trace_concat {commands : List Command} {outTrades : List Trade} {responses : List Response}
    (run : engine.trace commands outTrades = .ok responses) {command : Command}
    {response : Response}
    (applied : (engine.lastEngine responses).apply command (lastTrades outTrades responses) =
      .ok response) :
    engine.trace (commands ++ [command]) outTrades = .ok (responses ++ [response]) := by
  induction commands generalizing engine outTrades responses with
  | nil =>
      obtain rfl := Except.ok.inj run
      rw [lastEngine_nil, lastTrades_nil] at applied
      simp only [List.nil_append, trace, applied, bind, Except.bind, pure, Except.pure]
  | cons first commands ih =>
      simp only [trace, bind, Except.bind, pure, Except.pure] at run
      split at run
      · contradiction
      rename_i head headApplied
      split at run
      · contradiction
      rename_i tail tailRun
      obtain rfl := Except.ok.inj run
      rw [lastEngine_cons, lastTrades_cons] at applied
      simp only [List.cons_append, trace, headApplied, ih tailRun applied, bind, Except.bind,
        pure, Except.pure]

/-- The rule for runs: a fact about the history that holds at the start and that every
command of the run extends, without a fault, holds at the end. -/
theorem trace_induction {P : List Command → List Response → Prop} {outTrades : List Trade}
    (start : P [] []) (commands : List Command)
    (step : ∀ before responses command, before.length < commands.length → P before responses →
      ∃ response, (engine.lastEngine responses).apply command (lastTrades outTrades responses) =
        .ok response ∧ P (before ++ [command]) (responses ++ [response])) :
    ∃ responses, engine.trace commands outTrades = .ok responses ∧ P commands responses := by
  induction commands using List.reverseRecOn with
  | nil => exact ⟨[], rfl, start⟩
  | append_singleton commands command ih =>
      rw [List.length_append, List.length_singleton] at step
      obtain ⟨responses, run, known⟩ := ih (fun before responses command shorter =>
        step before responses command (Nat.lt_succ_of_lt shorter))
      obtain ⟨response, applied, extended⟩ :=
        step commands responses command (Nat.lt_succ_self _) known
      exact ⟨_, trace_concat run applied, extended⟩

/-! ### What the trade vector holds makes no difference -/

/-- The loop state with more trades in front. -/
def MatchState.prepend (earlier : List Trade) (state : MatchState) : MatchState :=
  { state with outTrades := earlier ++ state.outTrades }

theorem matchStep_prepend (earlier : List Trade) (state : MatchState) :
    matchStep (state.prepend earlier) =
      (matchStep state).map (Option.map (MatchState.prepend earlier)) := by
  simp only [matchStep, MatchState.prepend]
  by_cases going : state.order.quantity > 0 ∧ state.book.emptySide state.order.opposite = false
  · simp only [going, and_self, if_true]
    cases state.book.frontOfBest state.order.opposite with
    | none => rfl
    | some best =>
        by_cases crosses : state.order.crosses best = true
        · simp only [crosses, if_true, bind, Except.bind, pure, Except.pure]
          cases state.book.reduceFront state.order.opposite
              (min state.order.quantity best.quantity) with
          | error fault => rfl
          | ok book => simp [Except.map, MatchState.prepend]
        · simp only [crosses, if_false, Bool.false_eq_true]
          rfl
  · simp only [going, if_false]
    rfl

theorem matchLoop_prepend (earlier : List Trade) (fuel : Nat) (state : MatchState) :
    matchLoop fuel (state.prepend earlier) =
      (matchLoop fuel state).map (MatchState.prepend earlier) := by
  induction fuel generalizing state with
  | zero => rfl
  | succ fuel ih =>
      simp only [matchLoop, matchStep_prepend, bind, Except.bind]
      cases matchStep state with
      | error fault => rfl
      | ok next =>
          cases next with
          | none => rfl
          | some next => exact ih next

theorem execute_prepend (engine : MatchingEngine) (order : Order) (sequence : UInt64)
    (earlier : List Trade) :
    engine.execute order sequence earlier =
      (engine.execute order sequence []).map (Response.prepend earlier) := by
  have loop := matchLoop_prepend earlier engine.book.orderCount
    ⟨engine.book, { order with sequence }, engine.nextTradeId, []⟩
  simp only [MatchState.prepend, List.append_nil] at loop
  simp only [execute, loop, bind, Except.bind]
  cases matchLoop engine.book.orderCount
    ⟨engine.book, { order with sequence }, engine.nextTradeId, []⟩ with
  | error fault => rfl
  | ok state =>
      simp only [Except.map, MatchState.prepend, List.length_append, List.length_nil,
        Nat.add_sub_cancel_left, Nat.sub_zero]
      split
      · cases restRemainder state.book state.order with
        | error fault => rfl
        | ok book => rfl
      · rfl

theorem apply_prepend (engine : MatchingEngine) (command : Command) (earlier : List Trade) :
    engine.apply command earlier = (engine.apply command []).map (Response.prepend earlier) := by
  cases command with
  | newOrder order =>
      simp only [apply, processOrder]
      split
      · exact execute_prepend _ order _ earlier
      · simp [Except.map, Response.prepend]
  | cancel orderId =>
      simp only [apply, bind, Except.bind]
      cases engine.cancel orderId with
      | error fault => rfl
      | ok answer => simp [Except.map, Response.prepend, pure, Except.pure]

theorem apply_cancel {orderId : UInt64} {outTrades : List Trade} {response : Response}
    (applied : engine.apply (.cancel orderId) outTrades = .ok response) :
    ∃ answer, engine.cancel orderId = .ok answer ∧
      response = ⟨answer.1, answer.2, outTrades⟩ := by
  simp only [apply, bind, Except.bind, pure, Except.pure] at applied
  split at applied
  · contradiction
  · rename_i answer canceled
    exact ⟨answer, canceled, (Except.ok.inj applied).symm⟩

/-! ### A trade vector for each command -/

/-- The responses to a list of commands, each with an empty trade vector. -/
def responses : MatchingEngine → List Command → Except Fault (List Response)
  | _, [] => .ok []
  | engine, command :: commands => do
      let response ← engine.apply command []
      let later ← responses response.engine commands
      return response :: later

theorem responses_append {front back : List Command} {answers later : List Response}
    (run : engine.responses front = .ok answers)
    (rest : (engine.lastEngine answers).responses back = .ok later) :
    engine.responses (front ++ back) = .ok (answers ++ later) := by
  induction front generalizing engine answers with
  | nil =>
      obtain rfl := Except.ok.inj run
      exact rest
  | cons first front ih =>
      simp only [responses, bind, Except.bind, pure, Except.pure] at run
      split at run
      · contradiction
      rename_i head headApplied
      split at run
      · contradiction
      rename_i tail tailRun
      obtain rfl := Except.ok.inj run
      rw [lastEngine_cons] at rest
      simp only [List.cons_append, responses, headApplied, ih tailRun rest, bind, Except.bind,
        pure, Except.pure]

theorem responses_concat {commands : List Command} {answers : List Response}
    (run : engine.responses commands = .ok answers) {command : Command} {response : Response}
    (applied : (engine.lastEngine answers).apply command [] = .ok response) :
    engine.responses (commands ++ [command]) = .ok (answers ++ [response]) := by
  apply responses_append run
  simp only [responses, applied, bind, Except.bind, pure, Except.pure]

/-! ### The final state only -/

/-- The engine after a list of commands, each with an empty trade vector, as the main loop
and the replay of a journal call it. -/
def runAll : MatchingEngine → List Command → Except Fault MatchingEngine
  | engine, [] => .ok engine
  | engine, command :: commands => do
      let response ← engine.apply command []
      runAll response.engine commands

theorem runAll_append {engine middle : MatchingEngine} {front : List Command}
    (reached : engine.runAll front = .ok middle) (back : List Command) :
    engine.runAll (front ++ back) = middle.runAll back := by
  induction front generalizing engine with
  | nil =>
      obtain rfl := Except.ok.inj reached
      rfl
  | cons command front ih =>
      simp only [runAll, bind, Except.bind] at reached
      split at reached
      · contradiction
      rename_i response applied
      simp only [List.cons_append, runAll, applied, bind, Except.bind]
      exact ih reached

end Lob.MatchingEngine
