import Lob.OrderBook.BestOrder
import Lob.Reference.Invariant

/-!
# The matching engine simulates the reference engine

`Simulates engine reference` relates the two states: the book represents the live list
and the remaining components agree. Every command runs without a `Fault` in a related
state, gives the reference's report and trades, and leads to related states again. In
this form the statement holds for runs of any length. The reference is told the answer
to the one question that the engine decides from wrapping totals; the last section
shows that the answer is the exact one while at most `2^32` orders are live.
-/

namespace Lob

variable {state : MatchState}

open MatchingEngine

/-! ### The matching loop -/

/-- The loop states agree, the book being a view of the live list. -/
def MatchSimulates (state : MatchState) (reference : Reference.MatchState) : Prop :=
  ∃ nodes, Represents state.book nodes ∧
    reference = ⟨nodes.map OrderNode.order, state.order, state.nextTradeId, state.outTrades⟩

theorem map_order_filterMap_reduceNode (nodes : List OrderNode) (orderId : UInt64)
    (qty : UInt32) :
    (nodes.filterMap (reduceNode orderId qty)).map OrderNode.order =
      (nodes.map OrderNode.order).filterMap (Reference.reduce orderId qty) := by
  rw [List.map_filterMap, List.filterMap_map]
  apply List.filterMap_congr
  intro node _
  simp [reduceNode, Function.comp_def]

/-- Everything that one evaluation of the loop head and body can do. -/
theorem Represents.matchStep_cases {nodes : List OrderNode} (rep : Represents state.book nodes) :
    (matchStep state = .ok none ∧
        (state.order.quantity = 0 ∨
          (nodes.map OrderNode.order).filter state.order.accepts = [])) ∨
      ∃ node book', BestView state.book nodes state.order node ∧
        state.order.crosses node.order = true ∧ state.order.quantity > 0 ∧
        Represents book' (nodes.filterMap
          (reduceNode node.order.id (min state.order.quantity node.order.quantity))) ∧
        matchStep state = .ok (some
          { book := book'
            order := { state.order with
              quantity := state.order.quantity - min state.order.quantity node.order.quantity }
            nextTradeId := state.nextTradeId + 1
            outTrades := state.outTrades ++
              [tradeOf state.nextTradeId state.order node.order
                (min state.order.quantity node.order.quantity)] }) := by
  by_cases opened : state.order.quantity > 0
  · rcases rep.best_cases state.order with ⟨empty, _, none⟩ | ⟨node, view⟩
    · refine Or.inl ⟨?_, Or.inr none⟩
      simp [matchStep, empty]
    · cases crosses : state.order.crosses node.order with
      | false =>
          refine Or.inl ⟨?_, Or.inr (view.refused crosses)⟩
          simp [matchStep, opened, view.nonempty, view.front, crosses]
      | true =>
          obtain ⟨book', reduced, rep'⟩ :=
            view.reduced (min state.order.quantity node.order.quantity) Std.min_le_right
          refine Or.inr ⟨node, book', view, crosses, opened, rep', ?_⟩
          simp only [matchStep, opened, view.nonempty, view.front, crosses, and_self, if_true,
            reduced, bind, Except.bind, pure, Except.pure]
  · refine Or.inl ⟨?_, Or.inl ?_⟩
    · simp [matchStep, opened]
    · by_contra positive
      exact opened (UInt32.pos_iff_ne_zero.mpr positive)

theorem matchStep_simulates {reference : Reference.MatchState}
    (sim : MatchSimulates state reference) :
    (matchStep state = .ok none ∧ Reference.matchStep reference = none) ∨
      ∃ state' reference', matchStep state = .ok (some state') ∧
        Reference.matchStep reference = some reference' ∧ MatchSimulates state' reference' := by
  obtain ⟨nodes, rep, rfl⟩ := sim
  rcases rep.matchStep_cases with ⟨stop, done⟩ | ⟨node, book', view, crosses, opened, rep', step⟩
  · exact Or.inl ⟨stop, Reference.matchStep_eq_none_iff.mpr done⟩
  · refine Or.inr ⟨_, _, step, Reference.matchStep_eq_some_iff.mpr
      ⟨opened, node.order, view.picked crosses, rfl⟩, _, rep', ?_⟩
    rw [map_order_filterMap_reduceNode]
    rfl

theorem matchLoop_simulates (fuel : Nat) {reference : Reference.MatchState}
    (sim : MatchSimulates state reference) :
    ∃ state', matchLoop fuel state = .ok state' ∧
      MatchSimulates state' (Reference.matchLoop fuel reference) := by
  induction fuel generalizing state reference with
  | zero => exact ⟨state, rfl, sim⟩
  | succ fuel ih =>
      rcases matchStep_simulates sim with ⟨stop, stop'⟩ | ⟨next, next', step, step', sim'⟩
      · refine ⟨state, ?_, by simpa only [Reference.matchLoop, stop'] using sim⟩
        simp only [matchLoop, stop, bind, Except.bind, pure, Except.pure]
      · obtain ⟨final, loop, simFinal⟩ := ih sim'
        refine ⟨final, ?_, by simpa only [Reference.matchLoop, step'] using simFinal⟩
        simp only [matchLoop, step, bind, Except.bind, loop]

/-! ### Commands -/

/-- The states agree, the book being the view of the listed nodes. -/
structure SimulatesOn (engine : MatchingEngine) (reference : Reference)
    (nodes : List OrderNode) : Prop where
  book : Represents engine.book nodes
  live : nodes.map OrderNode.order = reference.live
  risk : engine.risk = reference.risk
  seen : engine.seenOrderIds = reference.seenOrderIds
  sequence : engine.sequence = reference.sequence
  nextTradeId : engine.nextTradeId = reference.nextTradeId

/-- The engine state and the reference state agree. -/
def Simulates (engine : MatchingEngine) (reference : Reference) : Prop :=
  ∃ nodes, SimulatesOn engine reference nodes

theorem simulates_start (risk : RiskManager) : Simulates { risk := risk } { risk := risk } :=
  ⟨[], represents_empty, rfl, rfl, rfl, rfl, rfl⟩

theorem simulates_fresh (limits : RiskLimits) : Simulates (.fresh limits) (.fresh limits) :=
  simulates_start { limits }

/-- The outcomes of a command agree. -/
structure Agrees (response : Response) (expected : Reference.Response) : Prop where
  report : response.report = expected.report
  outTrades : response.outTrades = expected.outTrades
  engine : Simulates response.engine expected.engine

/-- The preflight answer of the engine: the executable quantity falls short. -/
def MatchingEngine.shortfall (engine : MatchingEngine) : Command → Bool
  | .newOrder order =>
      decide (engine.book.executableQuantity order order.quantity.toUInt64 <
        order.quantity.toUInt64)
  | .cancel _ => false

section Commands

variable {engine : MatchingEngine} {reference : Reference} {nodes : List OrderNode} {order : Order}

theorem SimulatesOn.length_eq (sim : SimulatesOn engine reference nodes) :
    engine.book.orderCount = reference.live.length := by
  rw [sim.book.orderCount_eq, ← sim.live, List.length_map]

theorem SimulatesOn.rejectReason_eq (sim : SimulatesOn engine reference nodes) (order : Order) :
    engine.rejectReason order =
      reference.rejectReason order (engine.shortfall (.newOrder order)) := by
  unfold MatchingEngine.rejectReason Reference.rejectReason
  by_cases valid : validateStatic order = .none
  · have facts := staticallyValid_of_validateStatic valid
    rw [sim.seen, sim.book.wouldCross_eq facts.side facts.type, sim.live, sim.length_eq, sim.risk]
    simp only [MatchingEngine.shortfall, decide_eq_true_eq]
  · simp only [ne_eq, valid, not_false_eq_true, if_true]

/-- The unfilled remainder is inserted, so the assertion around it holds. -/
theorem restRemainder_ok {book : OrderBook} {nodes : List OrderNode} (rep : Represents book nodes)
    (restable : order.Restable) (new : ∀ node ∈ nodes, node.order.id ≠ order.id) :
    ∃ book', restRemainder book order = .ok book' ∧
      Represents book' (nodes ++ [⟨book.nextAddr, order⟩]) := by
  obtain ⟨book', added, rep'⟩ := rep.addOrder restable.id restable.quantity restable.price
    restable.type restable.side new
  refine ⟨book', ?_, rep'⟩
  simp only [restRemainder, added, bind, Except.bind, if_true, pure, Except.pure]

/-- The loop starts in related states. -/
theorem SimulatesOn.matchStart (sim : SimulatesOn engine reference nodes) (order : Order)
    (outTrades : List Trade) :
    MatchSimulates
      ⟨engine.book, { order with sequence := engine.sequence + 1 }, engine.nextTradeId, outTrades⟩
      (reference.matchStart order outTrades) := by
  refine ⟨nodes, sim.book, ?_⟩
  rw [Reference.matchStart, sim.live, sim.sequence, sim.nextTradeId]

theorem SimulatesOn.execute (sim : SimulatesOn engine reference nodes) (sound : reference.Sound)
    {shortfall : Bool} (passed : reference.Passed order shortfall) (outTrades : List Trade) :
    ∃ response, { engine with sequence := engine.sequence + 1 }.execute order
        (engine.sequence + 1) outTrades = .ok response ∧
      Agrees response (reference.execute order outTrades) := by
  obtain ⟨state, loop, nodes', rep, finished⟩ :=
    matchLoop_simulates engine.book.orderCount (sim.matchStart order outTrades)
  rw [sim.length_eq] at finished
  change reference.matchEnd order outTrades = _ at finished
  by_cases rests : state.order.quantity > 0 ∧ order.mayRest = true
  · have sameId := reference.matchEnd_order_id order outTrades
    have restable := Reference.restable_matchEnd outTrades passed rests.2
    have new := sound.new_of_passed passed outTrades
    rw [finished] at sameId restable new
    replace restable := restable (UInt32.pos_iff_ne_zero.mp rests.1)
    obtain ⟨book', inserted, rep'⟩ := restRemainder_ok rep restable
      (fun node member same => new _ (List.mem_map_of_mem member) (same.trans sameId))
    refine ⟨_, by simp only [MatchingEngine.execute, loop, rests, if_true, inserted, bind,
      Except.bind, pure, Except.pure, and_self]; rfl, ?_⟩
    refine ⟨?_, ?_, _, rep', ?_, sim.risk, ?_, ?_, ?_⟩
    all_goals simp only [Reference.execute, Reference.acceptedReport_eq, finished, rests, and_self,
      if_true, sim.seen, sim.sequence, List.map_append, List.map_cons, List.map_nil]
  · refine ⟨_, by simp only [MatchingEngine.execute, loop, rests, if_false, bind,
      Except.bind, pure, Except.pure]; rfl, ?_⟩
    refine ⟨?_, ?_, _, rep, ?_, sim.risk, ?_, ?_, ?_⟩
    all_goals simp only [Reference.execute, Reference.acceptedReport_eq, finished, rests, if_false,
      sim.seen, sim.sequence]

theorem processOrder_of_rejected {reason : RejectReason}
    (refused : { engine with sequence := engine.sequence + 1 }.rejectReason order = reason)
    (failed : reason ≠ .none) (outTrades : List Trade) :
    engine.processOrder order outTrades =
      .ok ⟨{ engine with
          sequence := engine.sequence + 1
          rejectedOrders := engine.rejectedOrders + 1 },
        ({ engine with sequence := engine.sequence + 1 }.rejectedReport order
          (engine.sequence + 1) reason).2, outTrades⟩ := by
  simp only [MatchingEngine.processOrder, refused]
  rfl

theorem SimulatesOn.processOrder (sim : SimulatesOn engine reference nodes)
    (sound : reference.Sound) (order : Order) (outTrades : List Trade) :
    ∃ response, engine.processOrder order outTrades = .ok response ∧
      Agrees response
        (reference.processOrder order (engine.shortfall (.newOrder order)) outTrades) := by
  have reasons : { engine with sequence := engine.sequence + 1 }.rejectReason order =
      reference.rejectReason order (engine.shortfall (.newOrder order)) :=
    sim.rejectReason_eq order
  rw [Reference.processOrder]
  split
  · rename_i passed
    rw [MatchingEngine.processOrder, reasons.trans passed]
    exact sim.execute sound (Reference.passed_of_rejectReason passed) outTrades
  · rename_i failed
    refine ⟨_, processOrder_of_rejected reasons failed outTrades, ?_, rfl, nodes, sim.book,
      sim.live, sim.risk, sim.seen, ?_, sim.nextTradeId⟩
    all_goals simp only [rejectedReport, Reference.rejectedReport, sim.sequence]

theorem cancel_of_absent {orderId : UInt64}
    (absent : orderId ≠ 0 → engine.book.cancelOrder orderId = .ok (engine.book, none)) :
    engine.cancel orderId =
      .ok ({ engine with sequence := engine.sequence + 1 },
        { orderId := orderId
          sequence := engine.sequence + 1
          command := .cancelOrder
          status := .rejected
          rejectReason := if orderId = 0 then .invalidOrderId else .orderNotFound }) := by
  by_cases zero : orderId = 0
  · simp only [MatchingEngine.cancel, zero, if_true, bind, Except.bind, pure, Except.pure]
  · simp only [MatchingEngine.cancel, zero, if_false, absent zero, bind, Except.bind, pure,
      Except.pure]

theorem cancel_of_found {orderId : UInt64} (nonzero : orderId ≠ 0) {book' : OrderBook}
    (found : engine.book.cancelOrder orderId = .ok (book', some order)) :
    engine.cancel orderId =
      .ok ({ engine with
          book := book'
          sequence := engine.sequence + 1
          canceledOrders := engine.canceledOrders + 1 },
        { orderId := orderId
          sequence := engine.sequence + 1
          command := .cancelOrder
          status := .canceled
          rejectReason := .none
          requestedQuantity := order.quantity
          remainingQuantity := 0 }) := by
  simp only [MatchingEngine.cancel, nonzero, if_false, found, bind, Except.bind, pure,
    Except.pure]

theorem SimulatesOn.cancel (sim : SimulatesOn engine reference nodes) (orderId : UInt64)
    (outTrades : List Trade) :
    ∃ engine' report, engine.cancel orderId = .ok (engine', report) ∧
      Agrees ⟨engine', report, outTrades⟩ (reference.cancel orderId outTrades) := by
  cases target : reference.cancelTarget orderId with
  | none =>
      have absent : orderId ≠ 0 → engine.book.cancelOrder orderId = .ok (engine.book, none) := by
        intro nonzero
        rw [Reference.cancelTarget, if_neg nonzero, ← sim.live, List.find?_eq_none] at target
        apply sim.book.cancelOrder_absent
        intro node member
        simpa using target node.order (List.mem_map_of_mem member)
      refine ⟨_, _, cancel_of_absent absent, ?_, ?_, nodes, sim.book, ?_, ?_, ?_, ?_, ?_⟩
      all_goals simp only [Reference.cancel, target, sim.sequence, sim.live, sim.risk, sim.seen,
        sim.nextTradeId]
  | some order =>
      obtain ⟨nonzero, member, sameId⟩ := Reference.mem_live_of_cancelTarget target
      rw [← sim.live] at member
      obtain ⟨node, inNodes, rfl⟩ := List.mem_map.mp member
      obtain ⟨book', canceled, rep'⟩ := sim.book.cancelOrder inNodes
      rw [sameId] at canceled rep'
      refine ⟨_, _, cancel_of_found nonzero canceled, ?_, ?_, _, rep', ?_, ?_, ?_, ?_, ?_⟩
      all_goals simp only [Reference.cancel, target, sim.sequence, sim.risk, sim.seen,
        sim.nextTradeId]
      rw [← sim.live, List.filter_map]
      rfl

/-- One command: no fault, the reference's outcome, and related states again. -/
theorem Simulates.apply (sim : Simulates engine reference) (sound : reference.Sound)
    (command : Command) (outTrades : List Trade) :
    ∃ response, engine.apply command outTrades = .ok response ∧
      Agrees response
        (reference.applyWith command (engine.shortfall command) outTrades) := by
  obtain ⟨nodes, sim⟩ := sim
  cases command with
  | newOrder order => exact sim.processOrder sound order outTrades
  | cancel orderId =>
      obtain ⟨engine', report, canceled, agrees⟩ := sim.cancel orderId outTrades
      refine ⟨_, ?_, agrees⟩
      simp only [MatchingEngine.apply, canceled, bind, Except.bind, pure, Except.pure]

theorem Simulates.agrees (sim : Simulates engine reference) (sound : reference.Sound)
    {command : Command} {outTrades : List Trade} {response : Response}
    (applied : engine.apply command outTrades = .ok response) :
    Agrees response (reference.applyWith command (engine.shortfall command) outTrades) := by
  obtain ⟨response', applied', agrees⟩ := sim.apply sound command outTrades
  obtain rfl := Except.ok.inj (applied.symm.trans applied')
  exact agrees

end Commands

/-! ### Consistent states -/

/-- Some sound reference state agrees with the engine. -/
def MatchingEngine.Consistent (engine : MatchingEngine) : Prop :=
  ∃ reference, Simulates engine reference ∧ reference.Sound

theorem consistent_fresh (limits : RiskLimits) : (MatchingEngine.fresh limits).Consistent :=
  ⟨_, simulates_fresh limits, Reference.sound_fresh limits⟩

/-- A consistent engine carries out every command without a fault and stays consistent. -/
theorem MatchingEngine.Consistent.apply {engine : MatchingEngine} (consistent : engine.Consistent)
    (command : Command) (outTrades : List Trade) :
    ∃ response, engine.apply command outTrades = .ok response ∧ response.engine.Consistent := by
  obtain ⟨reference, sim, sound⟩ := consistent
  obtain ⟨response, applied, agrees⟩ := sim.apply sound command outTrades
  exact ⟨response, applied, _, agrees.engine,
    sound.step (reference.applyWith_step command (engine.shortfall command) outTrades)⟩

theorem MatchingEngine.Consistent.of_apply {engine : MatchingEngine}
    (consistent : engine.Consistent) {command : Command} {outTrades : List Trade}
    {response : Response} (applied : engine.apply command outTrades = .ok response) :
    response.engine.Consistent := by
  obtain ⟨response', applied', consistent'⟩ := consistent.apply command outTrades
  rwa [Except.ok.inj (applied.symm.trans applied')]

end Lob
