import Lob.ShardedEngine.TradeOrder

/-!
# Overlapping sections

From every state in which a matching section comes next that makes trades of a symbol while
another worker still has trades of that symbol to record, the workers can finish so that the
trade log is wrong.
-/

namespace Lob

namespace ShardedEngine

variable {config : ShardedConfig} {engine : ShardedEngine config} {event : ShardedEvent config}
  {outTrades : List Trade} {response : Response} {order : Order}

/-- A worker finishes its call: it records what it has to record. -/
theorem exists_finish (engine : ShardedEngine config) (id : Fin config.workers)
    (call : ShardedCall) (running : engine.workers id ≠ .faulted) :
    ∃ events, let final := Schedule.run step engine events
      final.workers = Function.update engine.workers id .outside ∧
      final.generated = engine.generated ∧
      final.tradeLog.maxPerSymbol = engine.tradeLog.maxPerSymbol ∧
      ∀ symbol, final.tradeLog.bySymbol symbol =
        ((engine.workers id).unrecorded symbol).foldl
          (Window.push engine.tradeLog.maxPerSymbol) (engine.tradeLog.bySymbol symbol) := by
  cases point : engine.workers id with
  | faulted => exact absurd point running
  | outside =>
      refine ⟨[], ?_, rfl, rfl, fun _ => rfl⟩
      rw [← point]
      exact (Function.update_eq_self id engine.workers).symm
  | recording own trades tradeCount =>
      induction trades generalizing engine with
      | nil =>
          refine ⟨[⟨id, call⟩], ?_⟩
          have returns : engine.step ⟨id, call⟩ = engine.returnWith id (.submitted tradeCount) := by
            rw [step, point]
          simp only [Schedule.run, List.foldl_cons, List.foldl_nil, returns]
          refine ⟨rfl, rfl, rfl, fun symbol => ?_⟩
          rw [SubmitPoint.unrecorded, ite_self]
          rfl
      | cons trade trades ih =>
          let after := { engine with tradeLog := engine.tradeLog.record own trade }.setWorker id
            (.recording own trades tradeCount)
          have records : engine.step ⟨id, call⟩ = after := by
            rw [step, point]
          have here : after.workers id = .recording own trades tradeCount :=
            Function.update_self _ _ _
          obtain ⟨events, workers, generated, depth, log⟩ :=
            ih after (by rw [here]; exact SubmitPoint.noConfusion) here
          refine ⟨⟨id, call⟩ :: events, ?_⟩
          simp only [Schedule.run, List.foldl_cons, records]
          refine ⟨?_, generated, depth, fun symbol => ?_⟩
          · exact workers.trans (Function.update_idem _ _ _)
          · rw [Schedule.run] at log
            rw [log symbol]
            by_cases same : own = symbol
            · subst same
              simp only [SubmitPoint.unrecorded, if_true, List.foldl_cons]
              exact congrArg (trades.foldl (Window.push engine.tradeLog.maxPerSymbol))
                (engine.tradeLog.bySymbol_record_self own trade)
            · simp only [SubmitPoint.unrecorded, if_neg same]
              exact TradeLog.bySymbol_record_of_ne _ (Ne.symm same) trade

/-- The workers of a list finish their calls, one after the other. -/
theorem exists_finish_all (call : ShardedCall) {ids : List (Fin config.workers)} (once : ids.Nodup)
    (engine : ShardedEngine config) (running : ∀ id, engine.workers id ≠ .faulted) :
    ∃ events, let final := Schedule.run step engine events
      (∀ id ∈ ids, final.workers id = .outside) ∧
      (∀ id, id ∉ ids → final.workers id = engine.workers id) ∧
      final.generated = engine.generated ∧
      ∀ symbol, final.tradeLog.bySymbol symbol =
        (ids.flatMap (fun id => (engine.workers id).unrecorded symbol)).foldl
          (Window.push engine.tradeLog.maxPerSymbol) (engine.tradeLog.bySymbol symbol) := by
  induction ids generalizing engine with
  | nil =>
      exact ⟨[], fun _ member => absurd member List.not_mem_nil, fun _ _ => rfl, rfl, fun _ => rfl⟩
  | cons first ids ih =>
      obtain ⟨notLater, once'⟩ := List.nodup_cons.mp once
      obtain ⟨front, workers, generated, depth, log⟩ :=
        engine.exists_finish first call (running first)
      have elsewhere : ∀ id, id ≠ first →
          (Schedule.run step engine front).workers id = engine.workers id := by
        intro id different
        rw [workers, Function.update_of_ne different]
      obtain ⟨back, outside, untouched, generated', log'⟩ :=
        ih once' (Schedule.run step engine front) (fun id => by
          rw [workers]
          by_cases here : id = first
          · subst here
            rw [Function.update_self]
            exact SubmitPoint.noConfusion
          · rw [Function.update_of_ne here]
            exact running id)
      refine ⟨front ++ back, ?_⟩
      rw [Schedule.run_append]
      refine ⟨fun id member => ?_, fun id absent => ?_, generated'.trans generated,
        fun symbol => ?_⟩
      · rcases List.mem_cons.mp member with rfl | later
        · rw [untouched id notLater, workers, Function.update_self]
        · exact outside id later
      · rw [List.mem_cons, not_or] at absent
        rw [untouched id absent.2, elsewhere id absent.1]
      · rw [log' symbol, depth, log symbol, List.flatMap_cons, List.foldl_append]
        congr 1
        refine List.flatMap_congr (fun id member => ?_)
        rw [elsewhere id (fun same => notLater (same ▸ member))]

theorem step_submit (outside : engine.workers event.worker = .outside) {symbol : Symbol}
    (called : event.call = .submit symbol order outTrades)
    (processed : ((engine.engineOf symbol).getD (.fresh {})).apply (.newOrder order) outTrades =
      .ok response) :
    (engine.step event).workers = Function.update engine.workers event.worker
        (.recording symbol (response.outTrades.drop outTrades.length)
          (response.outTrades.drop outTrades.length).length) ∧
      (engine.step event).generated symbol =
        engine.generated symbol ++ response.outTrades.drop outTrades.length := by
  rw [MatchingEngine.apply] at processed
  simp only [step, outside, called, submit, processed]
  exact ⟨rfl, Function.update_self _ _ _⟩

/-- One worker finishes first, and the log then ends with a trade of some other worker. -/
theorem exists_finish_first (call : ShardedCall) (engine : ShardedEngine config)
    (running : ∀ id, engine.workers id ≠ .faulted) (deep : 0 < engine.tradeLog.maxPerSymbol)
    {first holder : Fin config.workers} (different : holder ≠ first) {symbol : Symbol}
    (held : (engine.workers holder).unrecorded symbol ≠ []) :
    ∃ events, let final := Schedule.run step engine events
      (∀ id, final.workers id = .outside) ∧ final.generated = engine.generated ∧
      ∃ id trade, id ≠ first ∧ trade ∈ (engine.workers id).unrecorded symbol ∧
        final.tradeLog.recent symbol 1 = [trade] := by
  have unique := List.nodup_finRange config.workers
  have once : (first :: (List.finRange config.workers).erase first).Nodup :=
    List.nodup_cons.mpr ⟨unique.not_mem_erase, unique.erase first⟩
  obtain ⟨events, done, _, kept, log⟩ := exists_finish_all call once engine running
  refine ⟨events, fun id => done id ?_, kept, ?_⟩
  · by_cases here : id = first
    · exact here ▸ List.mem_cons_self
    · exact List.mem_cons_of_mem _ ((List.mem_erase_of_ne here).mpr (List.mem_finRange id))
  · -- the trades of the others are recorded behind those of the first worker
    let rest := ((List.finRange config.workers).erase first).flatMap
      (fun id => (engine.workers id).unrecorded symbol)
    have some : rest ≠ [] := by
      intro empty
      exact held (List.flatMap_eq_nil_iff.mp empty holder
        ((List.mem_erase_of_ne different).mpr (List.mem_finRange holder)))
    have member := List.getLast_mem some
    obtain ⟨id, inRest, inTrades⟩ := List.mem_flatMap.mp member
    refine ⟨id, rest.getLast some, (unique.mem_erase_iff.mp inRest).1, inTrades, ?_⟩
    have behind : ((engine.workers first).unrecorded symbol ++ rest) ≠ [] :=
      List.append_ne_nil_of_right_ne_nil _ some
    rw [TradeLog.recent_eq_rtake, log symbol, List.flatMap_cons, Window.rtake_one,
      Window.getLast?_foldl_push deep _ behind, List.getLast?_append_of_ne_nil _ some,
      List.getLast?_eq_some_getLast some]
    rfl

/-- Where sections overlap, the workers can finish so that the log ends with an older trade
than the last one that was made. -/
theorem disordered_of_overlaps (deep : 0 < config.tradeLogDepth)
    (events : List (ShardedEvent config))
    (overlaps : (Schedule.run step (initial config) events).overlaps event = true) :
    ∃ symbol later, let final := Schedule.run step (initial config) (events ++ event :: later)
      (∀ id, final.workers id = .outside) ∧
      ((final.generated symbol).length < 2 ^ 64 →
        final.tradeLog.recent symbol 1 ≠ (final.generated symbol).rtake 1) := by
  let engine := Schedule.run step (initial config) events
  have steady : engine.Steady := steady_run events
  obtain ⟨outside, symbol, order, outTrades, called, some, holder, held⟩ :=
    overlaps_iff.mp overlaps
  obtain ⟨response, processed, _⟩ :=
    (steady.consistent symbol).apply (.newOrder order) outTrades
  rw [matched_eq processed] at some
  obtain ⟨workers, generated⟩ := step_submit outside called processed
  have others : ∀ id, id ≠ event.worker →
      (engine.step event).workers id = engine.workers id := by
    intro id different
    rw [workers, Function.update_of_ne different]
  have different : holder ≠ event.worker := by
    rintro rfl
    exact held (by rw [outside]; rfl)
  have steady' : (engine.step event).Steady := steady.step event
  -- the worker of the second section finishes before the others
  obtain ⟨later, done, kept, id, trade, apart, inTrades, shown⟩ :=
    (engine.step event).exists_finish_first event.call steady'.running
      (by rw [steady'.depth]; exact deep) different (by rw [others holder different]; exact held)
  have reached : Schedule.run step (initial config) (events ++ event :: later) =
      Schedule.run step (engine.step event) later := Schedule.run_append _ _ _ _
  rw [others id apart] at inTrades
  refine ⟨symbol, later, ?_⟩
  rw [reached]
  refine ⟨done, fun few same => ?_⟩
  -- the shown trade was made before the last one, so its number is smaller
  rw [kept] at few same
  have increasing := steady'.increasing few
  rw [generated] at same increasing
  rw [shown, Window.rtake_one, List.getLast?_append_of_ne_nil _ some,
    List.getLast?_eq_some_getLast some, Option.toList_some, List.singleton_inj] at same
  have smaller := (List.pairwise_append.mp increasing).2.2 trade
    (steady.made id symbol trade inTrades) _ (List.getLast_mem some)
  rw [← same] at smaller
  exact absurd smaller (UInt64.lt_irrefl _)

end ShardedEngine

end Lob
