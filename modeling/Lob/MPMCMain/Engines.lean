import Lob.MPMCMain.Termination

/-!
# The engines of `mpmc_matching_main` and their trade log

The engine of a symbol processes the orders of the symbol one after the other, whichever
consumers submit them. The trade log has recorded what the engines have made, but for what a
consumer has yet to record. It is in order as long as no consumer makes trades of a symbol
while another one still has trades of that symbol to record.
-/

namespace Lob

namespace MPMCMain

variable {args : MPMCArgs} {state next : MPMCMain args} {event : MPMCMainEvent args}

/-! ### The engines -/

/-- The orders of a symbol, in the order in which its engine has processed them. -/
def submittedTo (state : MPMCMain args) (symbol : Symbol) : List SubmittedOrder :=
  state.submitted.filter (fun entry => decide (entry.item.symbol = symbol))

/-- The engine of a symbol has processed its orders one after the other. -/
structure Sequences (state : MPMCMain args) (symbol : Symbol) : Prop where
  run : (MatchingEngine.fresh {}).responses
      ((state.submittedTo symbol).map (fun entry => .newOrder entry.item.order)) =
    .ok ((state.submittedTo symbol).map SubmittedOrder.response)
  last : state.engine.engineOf symbol =
    (state.submittedTo symbol).getLast?.map (fun entry => entry.response.engine)
  trades : state.engine.generated symbol =
    (state.submittedTo symbol).flatMap (fun entry => entry.response.outTrades)

theorem sequences_initial (args : MPMCArgs) (symbol : Symbol) :
    (initial args).Sequences symbol where
  run := rfl
  last := rfl
  trades := rfl

/-- An order of the symbol itself. -/
theorem Sequences.own {symbol : Symbol} (sequences : state.Sequences symbol) {order : Order}
    {response : Response}
    (processed : ((state.engine.engineOf symbol).getD (.fresh {})).apply (.newOrder order) [] =
      .ok response)
    (own : next.submittedTo symbol = state.submittedTo symbol ++ [⟨⟨symbol, order⟩, response⟩])
    (last : next.engine.engineOf symbol = some response.engine)
    (trades : next.engine.generated symbol =
      state.engine.generated symbol ++ response.outTrades) : next.Sequences symbol where
  run := by
    have reached : (MatchingEngine.fresh {}).lastEngine
        ((state.submittedTo symbol).map SubmittedOrder.response) =
          (state.engine.engineOf symbol).getD (.fresh {}) := by
      rw [MatchingEngine.lastEngine, sequences.last, List.getLast?_map, Option.map_map]
      rfl
    rw [← reached] at processed
    rw [own, List.map_append, List.map_append]
    exact MatchingEngine.responses_concat sequences.run processed
  last := by
    rw [own, List.getLast?_concat, last]
    rfl
  trades := by
    rw [own, List.flatMap_append, trades, sequences.trades]
    simp

/-- An order of another symbol. -/
theorem Sequences.other {symbol : Symbol} (sequences : state.Sequences symbol)
    (others : next.submittedTo symbol = state.submittedTo symbol)
    (last : next.engine.engineOf symbol = state.engine.engineOf symbol)
    (trades : next.engine.generated symbol = state.engine.generated symbol) :
    next.Sequences symbol where
  run := by rw [others, sequences.run]
  last := by rw [others, last, sequences.last]
  trades := by rw [others, trades, sequences.trades]

theorem Sequences.consumerMoves {symbol : Symbol} (sequences : state.Sequences symbol)
    (moves : state.ConsumerMoves next) : next.Sequences symbol := by
  cases moves with
  | @submits id item response submitting outside processed =>
      obtain ⟨own, order⟩ := item
      by_cases same : own = symbol
      · subst same
        refine sequences.own processed ?_ ?_ ?_
        · simp [submittedTo, List.filter_append]
        · exact ShardedEngine.engineOf_setEngine_self _ _ _
        · exact Function.update_self _ _ _
      · refine sequences.other ?_ ?_ ?_
        · simp [submittedTo, List.filter_append, same]
        · exact ShardedEngine.engineOf_setEngine_of_ne _ (Ne.symm same) _
        · exact Function.update_of_ne (Ne.symm same) _ _
  | _ => exact ⟨sequences.run, sequences.last, sequences.trades⟩

theorem Sequences.moves {symbol : Symbol} (sequences : state.Sequences symbol)
    (moves : state.Moves event next) : next.Sequences symbol := by
  cases moves with
  | stays _ => exact sequences
  | wakes _ _ _ _ => exact ⟨sequences.run, sequences.last, sequences.trades⟩
  | producer moves => cases moves <;> exact ⟨sequences.run, sequences.last, sequences.trades⟩
  | consumer moves => exact sequences.consumerMoves moves
  | main moves => cases moves <;> exact ⟨sequences.run, sequences.last, sequences.trades⟩

end MPMCMain

/-! ### The trade log -/

namespace ShardedEngine

variable {config : ShardedConfig} {engine next : ShardedEngine config}
  {event : ShardedEvent config} {symbol : Symbol}
variable {recorded : List Trade}

/-- The trades of a symbol that the log has recorded: all that the engine has made, but for
those that a worker has yet to record. The log keeps the last ones. -/
structure Logged (engine : ShardedEngine config) (symbol : Symbol) (recorded : List Trade) :
    Prop where
  window : engine.tradeLog.bySymbol symbol = recorded.rtake config.tradeLogDepth
  balance : ∀ kind : Trade → Bool, recorded.countP kind +
      ∑ id, ((engine.workers id).unrecorded symbol).countP kind =
    (engine.generated symbol).countP kind

theorem logged_initial (config : ShardedConfig) (symbol : Symbol) :
    (initial config).Logged symbol [] where
  window := (List.rtake_nil _).symm
  balance kind := by simp [initial, SubmitPoint.unrecorded]

/-- A worker makes new trades, or none, and leaves them to be recorded. -/
theorem Logged.setWorker (logged : engine.Logged symbol recorded) {id : Fin config.workers}
    {point : SubmitPoint} {new : List Trade} (tradeLog : next.tradeLog = engine.tradeLog)
    (workers : next.workers = Function.update engine.workers id point)
    (generated : next.generated symbol = engine.generated symbol ++ new)
    (due : point.unrecorded symbol = (engine.workers id).unrecorded symbol ++ new) :
    next.Logged symbol recorded where
  window := by rw [tradeLog, logged.window]
  balance kind := by
    have sum := Waiting.sum_update (fun point => (SubmitPoint.unrecorded symbol point).countP kind)
      engine.workers id point
    have before := logged.balance kind
    rw [due, List.countP_append] at sum
    rw [workers, generated, List.countP_append]
    omega

/-- A worker records a trade. -/
theorem Logged.record (logged : engine.Logged symbol recorded) (steady : engine.Steady)
    {id : Fin config.workers} {trade : Trade} {trades : List Trade} {tradeCount : Nat}
    (recording : engine.workers id = .recording symbol (trade :: trades) tradeCount) :
    ({ engine with tradeLog := engine.tradeLog.record symbol trade }.setWorker id
      (.recording symbol trades tradeCount)).Logged symbol (recorded ++ [trade]) where
  window := by
    refine (engine.tradeLog.bySymbol_record_self symbol trade).trans ?_
    rw [steady.depth, logged.window, Window.push_rtake]
  balance kind := by
    have sum := Waiting.sum_update (fun point => (SubmitPoint.unrecorded symbol point).countP kind)
      engine.workers id (.recording symbol trades tradeCount)
    have before := logged.balance kind
    have old : (engine.workers id).unrecorded symbol = trade :: trades := by
      rw [recording]
      exact if_pos rfl
    have new : (SubmitPoint.recording symbol trades tradeCount).unrecorded symbol = trades :=
      if_pos rfl
    rw [old, new, ← List.singleton_append, List.countP_append] at sum
    rw [List.countP_append, workers_setWorker]
    dsimp only at sum ⊢
    change _ = (engine.generated symbol).countP kind
    omega

theorem Logged.acts (logged : engine.Logged symbol recorded) (steady : engine.Steady)
    (acts : engine.Acts event next) :
    ∃ later, next.Logged symbol later := by
  have none {own : Symbol} {trades : List Trade} {tradeCount : Nat} (other : own ≠ symbol) :
      (SubmitPoint.recording own trades tradeCount).unrecorded symbol = [] := if_neg other
  cases acts with
  | stays _ => exact ⟨recorded, logged⟩
  | faults outside _ _ _ _ _ =>
      refine ⟨recorded, logged.setWorker rfl rfl (List.append_nil _).symm ?_⟩
      rw [outside]
      rfl
  | @submits outside own order outTrades response called processed =>
      by_cases here : own = symbol
      · subst here
        refine ⟨recorded, logged.setWorker rfl rfl (Function.update_self _ _ _) ?_⟩
        rw [outside]
        exact if_pos rfl
      · refine ⟨recorded, logged.setWorker rfl rfl
          (show _ = engine.generated symbol ++ [] from
            (Function.update_of_ne (Ne.symm here) _ _).trans (List.append_nil _).symm) ?_⟩
        rw [outside]
        exact none here
  | cancels outside own orderId response canceled =>
      refine ⟨recorded, logged.setWorker rfl rfl (List.append_nil _).symm ?_⟩
      rw [outside]
      rfl
  | misses outside =>
      refine ⟨recorded, logged.setWorker rfl rfl (List.append_nil _).symm ?_⟩
      rw [outside]
      rfl
  | @records own trade trades tradeCount recording =>
      by_cases here : own = symbol
      · subst here
        exact ⟨_, logged.record steady recording⟩
      · refine ⟨recorded, ?_⟩
        have kept : { engine with tradeLog := engine.tradeLog.record own trade }.Logged symbol
            recorded :=
          ⟨(engine.tradeLog.bySymbol_record_of_ne (Ne.symm here) trade).trans logged.window,
            logged.balance⟩
        refine kept.setWorker rfl rfl (List.append_nil _).symm ?_
        rw [none here, recording, none here]
        rfl
  | @returns own tradeCount finished =>
      refine ⟨recorded, logged.setWorker rfl rfl (List.append_nil _).symm ?_⟩
      rw [finished]
      exact (ite_self []).symm.trans (List.append_nil _).symm

end ShardedEngine

/-! ### The trade log in order -/

namespace MPMCMain

variable {args : MPMCArgs} {state next : MPMCMain args} {event : MPMCMainEvent args}

/-- No consumer makes trades of a symbol while another one has trades of that symbol to
record. -/
def Orderly (state : MPMCMain args) (event : MPMCMainEvent args) : Prop :=
  (state.engineEvent? event).all (fun step => !state.engine.overlaps step) = true

instance (state : MPMCMain args) (event : MPMCMainEvent args) :
    Decidable (state.Orderly event) :=
  inferInstanceAs (Decidable (_ = true))

theorem orderedAt_step {symbol : Symbol} (ordered : state.engine.OrderedAt symbol)
    (steady : state.engine.Steady) (orderly : state.Orderly event) :
    (state.step event).engine.OrderedAt symbol := by
  rw [(state.step_components event).2]
  unfold Orderly at orderly
  cases engineEvent : state.engineEvent? event with
  | none => exact ordered
  | some step =>
      rw [engineEvent] at orderly
      exact ordered.acts steady (by simpa using orderly) (state.engine.step_acts step)

/-- In a run of orderly steps the log is in order. -/
theorem orderedAt_run {events : List (MPMCMainEvent args)}
    (orderly : Schedule.Respects step Orderly (initial args) events) (symbol : Symbol) :
    (Schedule.run step (initial args) events).engine.OrderedAt symbol := by
  have invariant := Schedule.run_invariant_of_respects
    (P := fun state : MPMCMain args => state.Runs ∧ state.engine.OrderedAt symbol)
    (fun state event known allowed =>
      ⟨known.1.step event, orderedAt_step known.2 known.1.steady allowed⟩)
    ⟨runs_initial args, ShardedEngine.orderedAt_initial _ symbol⟩ orderly
  exact invariant.2

end MPMCMain

end Lob
