import Lob.Library.Schedule
import Lob.MatchingEngine.Counters
import Lob.ShardedEngine

/-!
# The order of the sharded engine's trade log

`submit` makes its trades under the mutex of the shard, and records them after it has
released that mutex. Two workers on one symbol may record in another order than they matched
in: the log is then out of order, and it may keep an older trade where it has dropped a newer
one. This takes a matching section that makes trades of a symbol while another worker still
has trades of that symbol to record. Runs without such a section keep the log in order.
-/

namespace Lob

/-- The trades of a symbol that the worker has yet to record. -/
def SubmitPoint.unrecorded (symbol : Symbol) : SubmitPoint → List Trade
  | .recording own trades _ => if own = symbol then trades else []
  | _ => []

namespace ShardedEngine

variable {config : ShardedConfig} {engine next : ShardedEngine config}
  {event : ShardedEvent config}
variable {outTrades : List Trade} {response : Response} {order : Order}

/-! ### What holds in every run -/

/-- The engines are consistent, and number their trades in the order in which they make them. -/
structure Steady (engine : ShardedEngine config) : Prop where
  depth : engine.tradeLog.maxPerSymbol = config.tradeLogDepth
  fits : ∀ symbol, (engine.tradeLog.bySymbol symbol).length ≤ config.tradeLogDepth
  running : ∀ id, engine.workers id ≠ .faulted
  consistent : ∀ symbol, ((engine.engineOf symbol).getD (.fresh {})).Consistent
  numbered : ∀ symbol, (engine.generated symbol).map Trade.tradeId =
    (List.range (engine.generated symbol).length).map (fun i => 1 + UInt64.ofNat i)
  nextTradeId : ∀ symbol, ((engine.engineOf symbol).getD (.fresh {})).nextTradeId =
    1 + UInt64.ofNat (engine.generated symbol).length
  made : ∀ id symbol, ∀ trade ∈ (engine.workers id).unrecorded symbol,
    trade ∈ engine.generated symbol

theorem steady_initial (config : ShardedConfig) : (initial config).Steady where
  depth := rfl
  fits _ := Nat.zero_le _
  running _ := SubmitPoint.noConfusion
  consistent _ := consistent_fresh {}
  numbered _ := rfl
  nextTradeId _ := rfl
  made _ _ _ member := absurd member List.not_mem_nil

/-- A worker walks on with trades that were made. -/
theorem Steady.walk (steady : engine.Steady) (id : Fin config.workers) {point : SubmitPoint}
    (running : point ≠ .faulted)
    (made : ∀ symbol, ∀ trade ∈ point.unrecorded symbol, trade ∈ engine.generated symbol) :
    (engine.setWorker id point).Steady := by
  refine { steady with running := fun other => ?_, made := fun other symbol trade member => ?_ }
  · rw [workers_setWorker]
    by_cases here : other = id
    · subst here
      rwa [Function.update_self]
    · rw [Function.update_of_ne here]
      exact steady.running other
  · rw [workers_setWorker] at member
    by_cases here : other = id
    · subst here
      rw [Function.update_self] at member
      exact made symbol trade member
    · rw [Function.update_of_ne here] at member
      exact steady.made other symbol trade member

/-- A command on one symbol appends its trades to those of the symbol. -/
theorem Steady.apply (steady : engine.Steady) {symbol : Symbol} {command : Command}
    (applied : ((engine.engineOf symbol).getD (.fresh {})).apply command outTrades = .ok response) :
    { engine.setEngine symbol response.engine with
      generated := Function.update engine.generated symbol
        (engine.generated symbol ++ response.outTrades.drop outTrades.length) }.Steady := by
  obtain ⟨consistent, new, appended, numbered, nextTradeId⟩ :=
    (steady.consistent symbol).apply_numbered applied
  have trades : response.outTrades.drop outTrades.length = new := by
    rw [appended, List.drop_left]
  have following := steady.nextTradeId symbol
  have known : ∀ other, other ≠ symbol →
      (engine.setEngine symbol response.engine).engineOf other = engine.engineOf other :=
    fun other different => engine.engineOf_setEngine_of_ne different response.engine
  rw [trades]
  refine ⟨steady.depth, steady.fits, steady.running, fun other => ?_, fun other => ?_,
    fun other => ?_, fun id other trade member => ?_⟩
  · change (((engine.setEngine symbol response.engine).engineOf other).getD _).Consistent
    by_cases own : other = symbol
    · rw [own, engineOf_setEngine_self]
      exact consistent
    · rw [known other own]
      exact steady.consistent other
  · by_cases own : other = symbol
    · subst own
      rw [following] at numbered
      simp only [Function.update_self]
      exact Reference.numbered_append (steady.numbered other) rfl numbered
    · simp only [Function.update_of_ne own]
      exact steady.numbered other
  · change (((engine.setEngine symbol response.engine).engineOf other).getD _).nextTradeId = _
    by_cases own : other = symbol
    · subst own
      simp only [engineOf_setEngine_self, Option.getD_some, Function.update_self]
      rw [nextTradeId, following, List.length_append, UInt64.ofNat_add, UInt64.add_assoc]
    · simp only [known other own, Function.update_of_ne own]
      exact steady.nextTradeId other
  · have old := steady.made id other trade member
    by_cases own : other = symbol
    · subst own
      simp only [Function.update_self]
      exact List.mem_append_left _ old
    · simp only [Function.update_of_ne own]
      exact old

/-- A cancel makes no trades. -/
theorem Steady.cancel (steady : engine.Steady) {symbol : Symbol} {orderId : UInt64}
    (canceled : ((engine.engineOf symbol).getD (.fresh {})).apply (.cancel orderId) [] =
      .ok response) : (engine.setEngine symbol response.engine).Steady := by
  have after := steady.apply canceled
  have none : response.outTrades = [] := by
    obtain ⟨_, _, rfl⟩ := MatchingEngine.apply_cancel canceled
    rfl
  rw [none, List.drop_nil, List.append_nil, Function.update_eq_self] at after
  exact after

theorem Steady.returnWith (steady : engine.Steady) (id : Fin config.workers)
    (result : ShardedResult) : (engine.returnWith id result).Steady := by
  have same : { engine with returned := engine.returned ++ [(id, result)] }.Steady :=
    { steady with }
  exact same.walk id SubmitPoint.noConfusion (fun _ _ member => absurd member List.not_mem_nil)

theorem Steady.record (steady : engine.Steady) (symbol : Symbol) (trade : Trade) :
    { engine with tradeLog := engine.tradeLog.record symbol trade }.Steady := by
  refine { steady with depth := steady.depth, fits := fun other => ?_ }
  by_cases own : other = symbol
  · subst own
    rw [TradeLog.bySymbol_record_self, steady.depth]
    exact Window.length_push_le (steady.fits other) trade
  · rw [TradeLog.bySymbol_record_of_ne _ own]
    exact steady.fits other

theorem Steady.acts (steady : engine.Steady) (acts : engine.Acts event next) : next.Steady := by
  cases acts with
  | stays _ => exact steady
  | faults _ symbol command outTrades fault failed =>
      obtain ⟨response, applied, _⟩ := (steady.consistent symbol).apply command outTrades
      rw [failed] at applied
      contradiction
  | submits outside called processed =>
      rename_i symbol order outTrades response
      refine (steady.apply processed).walk event.worker SubmitPoint.noConfusion ?_
      intro other trade member
      simp only [SubmitPoint.unrecorded] at member
      split at member
      · rename_i own
        subst own
        simp only [Function.update_self]
        exact List.mem_append_right _ member
      · exact absurd member List.not_mem_nil
  | cancels outside symbol orderId response canceled =>
      exact (steady.cancel canceled).returnWith event.worker _
  | misses outside => exact steady.returnWith event.worker _
  | records recording =>
      rename_i own trade trades tradeCount
      refine (steady.record own trade).walk event.worker SubmitPoint.noConfusion ?_
      intro other later member
      apply steady.made event.worker other later
      rw [recording]
      simp only [SubmitPoint.unrecorded] at member ⊢
      split at member
      · rename_i same
        rw [if_pos same]
        exact List.mem_cons_of_mem _ member
      · exact absurd member List.not_mem_nil
  | returns recorded => exact steady.returnWith event.worker _

theorem Steady.step (steady : engine.Steady) (event : ShardedEvent config) :
    (engine.step event).Steady :=
  steady.acts (engine.step_acts event)

theorem steady_run (events : List (ShardedEvent config)) :
    (Schedule.run step (initial config) events).Steady :=
  Schedule.run_invariant (fun _ event known => known.step event) (steady_initial config) events

/-- The trades of a symbol were made in the order of their numbers. -/
theorem Steady.increasing (steady : engine.Steady) {symbol : Symbol}
    (few : (engine.generated symbol).length < 2 ^ 64) :
    (engine.generated symbol).Pairwise (fun a b => a.tradeId < b.tradeId) := by
  rw [← List.pairwise_map, steady.numbered]
  exact Reference.numbered_increasing (by rw [UInt64.toNat_one]; omega)

/-! ### Runs in which sections do not overlap -/

/-- The trades that the matching section of a `submit` would make now. -/
def matched (engine : ShardedEngine config) (symbol : Symbol) (order : Order)
    (outTrades : List Trade) : List Trade :=
  match ((engine.engineOf symbol).getD (.fresh {})).processOrder order outTrades with
  | .error _ => []
  | .ok response => response.outTrades.drop outTrades.length

/-- The step is a matching section that makes trades of a symbol while some worker still has
trades of that symbol to record. -/
def overlaps (engine : ShardedEngine config) (event : ShardedEvent config) : Bool :=
  match engine.workers event.worker, event.call with
  | .outside, .submit symbol order outTrades =>
      !(engine.matched symbol order outTrades).isEmpty &&
        decide (∃ other, (engine.workers other).unrecorded symbol ≠ [])
  | _, _ => false

/-- The step leaves the log in order. A log of depth zero cannot be out of order. -/
def Orderly (engine : ShardedEngine config) (event : ShardedEvent config) : Prop :=
  config.tradeLogDepth = 0 ∨ engine.overlaps event = false

instance (engine : ShardedEngine config) (event : ShardedEvent config) :
    Decidable (engine.Orderly event) :=
  inferInstanceAs (Decidable (_ ∨ _))

/-- At most one worker has trades of the symbol to record, and these are they. -/
def Held (workers : Fin config.workers → SubmitPoint) (symbol : Symbol) (pending : List Trade) :
    Prop :=
  (pending = [] ∧ ∀ id, (workers id).unrecorded symbol = []) ∨
    ∃ id, (workers id).unrecorded symbol = pending ∧
      ∀ other, other ≠ id → (workers other).unrecorded symbol = []

section Held

variable {workers : Fin config.workers → SubmitPoint} {symbol : Symbol} {pending : List Trade}
  {id : Fin config.workers} {point : SubmitPoint}

/-- A worker walks on without a change to what it has to record of the symbol. -/
theorem Held.walk (held : Held workers symbol pending)
    (same : point.unrecorded symbol = (workers id).unrecorded symbol) :
    Held (Function.update workers id point) symbol pending := by
  have unchanged : ∀ other, (Function.update workers id point other).unrecorded symbol =
      (workers other).unrecorded symbol := by
    intro other
    by_cases here : other = id
    · rw [here, Function.update_self, same]
    · rw [Function.update_of_ne here]
  simp only [Held, unchanged]
  exact held

/-- The only worker with trades of the symbol is at another point. -/
theorem held_update (alone : ∀ other, other ≠ id → (workers other).unrecorded symbol = [])
    (point : SubmitPoint) :
    Held (Function.update workers id point) symbol (point.unrecorded symbol) := by
  refine Or.inr ⟨id, by rw [Function.update_self], fun other different => ?_⟩
  rw [Function.update_of_ne different]
  exact alone other different

/-- A worker with trades of the symbol is the only one. -/
theorem Held.alone (held : Held workers symbol pending)
    (some : (workers id).unrecorded symbol ≠ []) :
    (workers id).unrecorded symbol = pending ∧
      ∀ other, other ≠ id → (workers other).unrecorded symbol = [] := by
  rcases held with ⟨_, none⟩ | ⟨holder, same, others⟩
  · exact absurd (none id) some
  · have here : id = holder := by
      by_contra different
      exact some (others id different)
    subst here
    exact ⟨same, others⟩

theorem Held.eq_nil (held : Held workers symbol pending)
    (none : ∀ id, (workers id).unrecorded symbol = []) : pending = [] := by
  rcases held with ⟨empty, _⟩ | ⟨holder, same, _⟩
  · exact empty
  · rw [← same, none]

end Held

/-- The log of a symbol is a window of its trades, up to those that one worker has yet to
record. -/
def OrderedAt (engine : ShardedEngine config) (symbol : Symbol) : Prop :=
  ∃ recorded pending, engine.generated symbol = recorded ++ pending ∧
    engine.tradeLog.bySymbol symbol = recorded.rtake engine.tradeLog.maxPerSymbol ∧
    Held engine.workers symbol pending

theorem orderedAt_initial (config : ShardedConfig) (symbol : Symbol) :
    (initial config).OrderedAt symbol :=
  ⟨[], [], rfl, (List.rtake_nil _).symm, Or.inl ⟨rfl, fun _ => rfl⟩⟩

/-- A worker walks on without a change to the symbol. -/
theorem OrderedAt.walk {symbol : Symbol} (ordered : engine.OrderedAt symbol)
    {id : Fin config.workers} {point : SubmitPoint}
    (generated : next.generated symbol = engine.generated symbol)
    (log : next.tradeLog.bySymbol symbol = engine.tradeLog.bySymbol symbol)
    (depth : next.tradeLog.maxPerSymbol = engine.tradeLog.maxPerSymbol)
    (workers : next.workers = Function.update engine.workers id point)
    (same : point.unrecorded symbol = (engine.workers id).unrecorded symbol) :
    next.OrderedAt symbol := by
  obtain ⟨recorded, pending, all, window, held⟩ := ordered
  refine ⟨recorded, pending, generated.trans all, ?_, ?_⟩
  · rw [log, window, depth]
  · rw [workers]
    exact held.walk same

/-- A matching section makes trades of a symbol that nobody has to record. -/
theorem OrderedAt.submit {symbol : Symbol} (ordered : engine.OrderedAt symbol)
    {id : Fin config.workers} {trades : List Trade} {tradeCount : Nat}
    (generated : next.generated symbol = engine.generated symbol ++ trades)
    (log : next.tradeLog = engine.tradeLog)
    (workers : next.workers =
      Function.update engine.workers id (.recording symbol trades tradeCount))
    (none : ∀ other, (engine.workers other).unrecorded symbol = []) : next.OrderedAt symbol := by
  obtain ⟨recorded, pending, all, window, held⟩ := ordered
  obtain rfl := held.eq_nil none
  have taken := held_update (fun other (_ : other ≠ id) => none other)
    (.recording symbol trades tradeCount)
  rw [SubmitPoint.unrecorded, if_pos rfl] at taken
  refine ⟨recorded, trades, ?_, by rw [log, window], by rw [workers]; exact taken⟩
  rw [generated, all, List.append_nil]

/-- The only worker with trades of the symbol records the first of them. -/
theorem OrderedAt.record {symbol : Symbol} (ordered : engine.OrderedAt symbol)
    {id : Fin config.workers} {trade : Trade} {trades : List Trade} {tradeCount : Nat}
    (recording : engine.workers id = .recording symbol (trade :: trades) tradeCount) :
    OrderedAt ({ engine with tradeLog := engine.tradeLog.record symbol trade }.setWorker id
      (.recording symbol trades tradeCount)) symbol := by
  obtain ⟨recorded, pending, all, window, held⟩ := ordered
  have carries : (engine.workers id).unrecorded symbol = trade :: trades := by
    rw [recording, SubmitPoint.unrecorded, if_pos rfl]
  obtain ⟨same, alone⟩ := held.alone (by rw [carries]; exact List.cons_ne_nil _ _)
  have left := held_update alone (.recording symbol trades tradeCount)
  rw [SubmitPoint.unrecorded, if_pos rfl] at left
  refine ⟨recorded ++ [trade], trades, ?_, ?_, left⟩
  · change engine.generated symbol = _
    rw [all, ← same, carries, List.append_assoc, List.singleton_append]
  · change (engine.tradeLog.record symbol trade).bySymbol symbol = _
    rw [TradeLog.bySymbol_record_self, window, Window.push_rtake]
    rfl

/-- The trades of a `submit` are those that it was about to make. -/
theorem matched_eq {symbol : Symbol}
    (processed : ((engine.engineOf symbol).getD (.fresh {})).apply (.newOrder order) outTrades =
      .ok response) :
    engine.matched symbol order outTrades = response.outTrades.drop outTrades.length := by
  rw [MatchingEngine.apply] at processed
  rw [matched, processed]

theorem overlaps_iff : engine.overlaps event = true ↔
    engine.workers event.worker = .outside ∧
      ∃ symbol order outTrades, event.call = .submit symbol order outTrades ∧
        engine.matched symbol order outTrades ≠ [] ∧
        ∃ other, (engine.workers other).unrecorded symbol ≠ [] := by
  rw [overlaps]
  split
  · rename_i symbol order outTrades outside called
    refine ⟨fun both => ⟨outside, symbol, order, outTrades, called, by simpa using both⟩, ?_⟩
    rintro ⟨_, symbol', order', outTrades', called', facts⟩
    obtain ⟨rfl, rfl, rfl⟩ := ShardedCall.submit.inj (called.symm.trans called')
    simpa using facts
  · rename_i excluded
    refine iff_of_false Bool.false_ne_true ?_
    rintro ⟨outside, symbol, order, outTrades, called, _⟩
    exact excluded symbol order outTrades outside called

/-- Where a section that makes trades does not overlap, nobody has trades to record. -/
theorem unrecorded_of_not_overlaps (calm : engine.overlaps event = false)
    (outside : engine.workers event.worker = .outside) {symbol : Symbol}
    (called : event.call = .submit symbol order outTrades)
    (some : engine.matched symbol order outTrades ≠ []) (other : Fin config.workers) :
    (engine.workers other).unrecorded symbol = [] := by
  by_contra held
  have overlaps := overlaps_iff.mpr
    ⟨outside, symbol, order, outTrades, called, some, other, held⟩
  rw [calm] at overlaps
  contradiction

theorem OrderedAt.acts {symbol : Symbol} (ordered : engine.OrderedAt symbol)
    (steady : engine.Steady) (calm : engine.overlaps event = false)
    (acts : engine.Acts event next) : next.OrderedAt symbol := by
  cases acts with
  | stays _ => exact ordered
  | faults _ own command outTrades fault failed =>
      obtain ⟨response, applied, _⟩ := (steady.consistent own).apply command outTrades
      rw [failed] at applied
      contradiction
  | cancels outside _ _ _ _ => exact ordered.walk rfl rfl rfl rfl (by rw [outside])
  | misses outside => exact ordered.walk rfl rfl rfl rfl (by rw [outside])
  | returns recorded =>
      refine ordered.walk rfl rfl rfl rfl ?_
      rw [recorded, SubmitPoint.unrecorded, ite_self]
      rfl
  | records recording =>
      rename_i own trade trades tradeCount
      by_cases same : own = symbol
      · subst same
        exact ordered.record recording
      · refine ordered.walk rfl ?_ rfl rfl ?_
        · exact TradeLog.bySymbol_record_of_ne _ (Ne.symm same) trade
        · rw [recording, SubmitPoint.unrecorded, SubmitPoint.unrecorded, if_neg same,
            if_neg same]
  | submits outside called processed =>
      rename_i own order outTrades response
      have made := matched_eq processed
      by_cases same : own = symbol
      · subst same
        by_cases none : engine.matched own order outTrades = []
        · rw [none] at made
          refine ordered.walk ?_ rfl rfl rfl ?_
          · change Function.update engine.generated own _ own = _
            rw [Function.update_self, ← made, List.append_nil]
          · rw [outside, SubmitPoint.unrecorded, ← made, ite_self]
            rfl
        · refine ordered.submit ?_ rfl rfl
            (unrecorded_of_not_overlaps calm outside called none)
          exact Function.update_self _ _ _
      · refine ordered.walk ?_ rfl rfl rfl ?_
        · exact Function.update_of_ne (Ne.symm same) _ _
        · rw [outside, SubmitPoint.unrecorded, if_neg same]
          rfl

/-- In a run of orderly steps, every log of positive depth is in order. -/
theorem ordered_run {events : List (ShardedEvent config)} (deep : config.tradeLogDepth ≠ 0)
    (orderly : Schedule.Respects step Orderly (initial config) events) (symbol : Symbol) :
    (Schedule.run step (initial config) events).OrderedAt symbol := by
  have invariant := Schedule.run_invariant_of_respects
    (P := fun engine : ShardedEngine config => engine.Steady ∧ engine.OrderedAt symbol)
    ?_ ⟨steady_initial config, orderedAt_initial config symbol⟩ orderly
  · exact invariant.2
  · rintro engine event ⟨steady, ordered⟩ allowed
    exact ⟨steady.step event,
      ordered.acts steady (allowed.resolve_left deep) (engine.step_acts event)⟩

/-- The log in execution order. In a run of orderly steps, whenever no `submit` is in
progress, the log of a symbol shows the last of the trades that were made for it, in the order
in which they were made and numbered. -/
theorem trade_log_in_order (config : ShardedConfig) {events : List (ShardedEvent config)}
    (orderly : Schedule.Respects step Orderly (initial config) events)
    (done : ∀ id, (Schedule.run step (initial config) events).workers id = .outside)
    (symbol : Symbol) (k : Nat) :
    let engine := Schedule.run step (initial config) events
    let n := (engine.generated symbol).length
    engine.tradeLog.recent symbol k =
        (engine.generated symbol).rtake (min k (min config.tradeLogDepth n)) ∧
      (engine.generated symbol).map Trade.tradeId =
        (List.range n).map (fun i => 1 + UInt64.ofNat i) ∧
      (n < 2 ^ 64 →
        (engine.tradeLog.recent symbol k).Pairwise (fun a b => a.tradeId < b.tradeId)) := by
  intro engine n
  have steady : engine.Steady := steady_run events
  have window : engine.tradeLog.bySymbol symbol =
      (engine.generated symbol).rtake engine.tradeLog.maxPerSymbol := by
    rw [steady.depth]
    rcases Nat.eq_zero_or_pos config.tradeLogDepth with zero | positive
    · have fits := steady.fits symbol
      rw [zero, Nat.le_zero, List.length_eq_zero_iff] at fits
      rw [fits, zero, List.rtake_zero]
    · obtain ⟨recorded, pending, all, window, held⟩ :=
        ordered_run (Nat.ne_of_gt positive) orderly symbol
      have empty := held.eq_nil (fun id => by rw [done id]; rfl)
      rw [empty, List.append_nil] at all
      rw [← steady.depth]
      exact window.trans (congrArg (List.rtake · _) all.symm)
  have shown := TradeLog.recent_of_window window k
  rw [steady.depth] at shown
  refine ⟨shown, steady.numbered symbol, fun few => ?_⟩
  rw [shown]
  exact (steady.increasing few).sublist (List.drop_sublist _ _)

/-- Two workers on one symbol, with a log of the given depth. -/
def twoWorkers (depth : Nat) : ShardedConfig where
  tradeLogDepth := depth
  workers := 2

namespace TwoWorkersRun

def symbol : Symbol := ⟨#v[83, 72, 68, 0, 0, 0, 0, 0]⟩

/-- The step of a worker, which submits an order for one symbol when it is outside. -/
def work (depth : Nat) (worker : Fin 2) (order : Order) : ShardedEvent (twoWorkers depth) :=
  ⟨worker, .submit symbol order []⟩

/-- A sell order for two, which rests, and two buy orders for one. -/
def sell : Order := { id := 1, side := .sell, type := .limit, price := 100, quantity := 2 }

def buy (orderId : UInt64) : Order :=
  { id := orderId, side := .buy, type := .limit, price := 100, quantity := 1 }

end TwoWorkersRun

open TwoWorkersRun in
/-- The workers take turns. -/
theorem trade_log_in_order_turns :
    let events := [work 200 0 sell, work 200 0 sell, work 200 0 (buy 2), work 200 0 (buy 2),
      work 200 1 (buy 3), work 200 0 (buy 2), work 200 1 (buy 3), work 200 1 (buy 3)]
    let engine := Schedule.run step (initial (twoWorkers 200)) events
    Schedule.Respects step Orderly (initial (twoWorkers 200)) events ∧
      (∀ id, engine.workers id = .outside) ∧
      (engine.tradeLog.recent symbol 10).map Trade.tradeId = [1, 2] ∧
      engine.tradeLog.recent symbol 10 = (engine.generated symbol).rtake
        (min 10 (min 200 (engine.generated symbol).length)) := by
  intro events engine
  have orderly : Schedule.Respects step Orderly (initial (twoWorkers 200)) events := by
    decide +kernel
  have done : ∀ id, engine.workers id = .outside := by decide +kernel
  have shown : (engine.tradeLog.recent symbol 10).map Trade.tradeId = [1, 2] := by decide +kernel
  exact ⟨orderly, done, shown, (trade_log_in_order (twoWorkers 200) orderly done symbol 10).1⟩

open TwoWorkersRun in
/-- Both workers match, and the second one records first. The log shows the second trade
before the first, and a log of depth one has dropped the second trade for the first. -/
theorem trade_log_out_of_order :
    let events (depth : Nat) := [work depth 0 sell, work depth 0 sell, work depth 0 (buy 2),
      work depth 1 (buy 3), work depth 1 (buy 3), work depth 1 (buy 3), work depth 0 (buy 2),
      work depth 0 (buy 2)]
    let engine (depth : Nat) := Schedule.run step (initial (twoWorkers depth)) (events depth)
    ((∀ id, (engine 200).workers id = .outside) ∧
      ((engine 200).generated symbol).map Trade.tradeId = [1, 2] ∧
      ((engine 200).tradeLog.recent symbol 10).map Trade.tradeId = [2, 1]) ∧
    ((∀ id, (engine 1).workers id = .outside) ∧
      ((engine 1).generated symbol).map Trade.tradeId = [1, 2] ∧
      ((engine 1).tradeLog.recent symbol 10).map Trade.tradeId = [1]) := by
  decide +kernel

end ShardedEngine

end Lob
