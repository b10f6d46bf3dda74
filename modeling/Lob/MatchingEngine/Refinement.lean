import Lob.MatchingEngine.Simulation

/-!
# Refinement of the flat-list engine

While fewer than `2^32` commands have run, the cached totals of the book are exact and
the preflight answer of the engine is the one the live list gives. The engine then
follows `Reference.apply` command by command, with no parameter left to choose.
-/

namespace Lob

/-! ### The preflight answer -/

theorem quantitySum_le (nodes : List OrderNode) :
    quantitySum nodes ≤ nodes.length * (2 ^ 32 - 1) := by
  induction nodes with
  | nil => exact Nat.le_refl _
  | cons node nodes ih =>
      have bound : node.order.quantity.toNat < 2 ^ 32 := UInt32.toNat_lt _
      rw [quantitySum_cons, List.length_cons]
      omega

section Preflight

variable {engine : MatchingEngine} {reference : Reference} {nodes : List OrderNode} {order : Order}

theorem SimulatesOn.quantitySum_lt (sim : SimulatesOn engine reference nodes)
    (few : reference.live.length < 2 ^ 32) : quantitySum nodes < 2 ^ 64 := by
  have bound := quantitySum_le nodes
  have length : nodes.length < 2 ^ 32 := by rwa [← sim.live, List.length_map] at few
  have product : nodes.length * (2 ^ 32 - 1) ≤ 2 ^ 32 * (2 ^ 32 - 1) :=
    Nat.mul_le_mul_right _ (Nat.le_of_lt length)
  omega

/-- With few live orders the preflight total is exact. -/
theorem SimulatesOn.executableQuantity_toNat (sim : SimulatesOn engine reference nodes)
    (few : reference.live.length < 2 ^ 32) (valid : order.StaticallyValid) :
    (engine.book.executableQuantity order order.quantity.toUInt64).toNat =
      min order.quantity.toNat (Reference.acceptableQuantity reference.live order) := by
  rw [sim.book.executableQuantity_toNat valid.side valid.type (sim.quantitySum_lt few), sim.live,
    UInt32.toNat_toUInt64]

theorem SimulatesOn.shortfall_eq (sim : SimulatesOn engine reference nodes)
    (few : reference.live.length < 2 ^ 32) (valid : order.StaticallyValid) :
    engine.shortfall (.newOrder order) = reference.exactShortfall (.newOrder order) := by
  rw [MatchingEngine.shortfall, Reference.exactShortfall, Reference.shortfall, decide_eq_decide,
    UInt64.lt_iff_toNat_lt, sim.executableQuantity_toNat few valid, UInt32.toNat_toUInt64]
  omega

/-- The answer matters only for orders that pass static validation. -/
theorem Reference.processOrder_of_invalid (invalid : validateStatic order ≠ .none)
    (answer answer' : Bool) (outTrades : List Trade) :
    reference.processOrder order answer outTrades =
      reference.processOrder order answer' outTrades := by
  have reason : ∀ bit, reference.rejectReason order bit = validateStatic order :=
    fun bit => if_pos invalid
  simp only [Reference.processOrder, reason]

theorem Simulates.applyWith_shortfall (sim : Simulates engine reference)
    (few : reference.live.length < 2 ^ 32) (command : Command) (outTrades : List Trade) :
    reference.applyWith command (engine.shortfall command) outTrades =
      reference.apply command outTrades := by
  obtain ⟨nodes, sim⟩ := sim
  cases command with
  | newOrder order =>
      by_cases valid : validateStatic order = .none
      · rw [sim.shortfall_eq few (staticallyValid_of_validateStatic valid)]
        rfl
      · exact Reference.processOrder_of_invalid valid _ _ outTrades
  | cancel orderId => rfl

end Preflight

/-! ### What the book holds -/

/-- The level of a side and price that the live list asks for: its orders in arrival
order and their exact total, or none. -/
def liveLevel (live : List Order) (side : Side) (price : Int64) : Option (List Order × Nat) :=
  let resting := live.filter (fun order => decide (order.side = side ∧ order.price = price))
  if resting.isEmpty then none
  else some (resting, (resting.map (fun order => order.quantity.toNat)).sum)

/-- The orders of a level and its cached total. -/
def PriceLevel.contents (level : PriceLevel) : List Order × Nat :=
  (level.orders.map OrderNode.order, level.totalQuantity.toNat)

/-- The book holds exactly the live orders: by side and price, first in first out, with
exact totals and an index over the same ids. -/
structure OrderBook.Holds (book : OrderBook) (live : List Order) : Prop where
  buy : ∀ price, (book.buyLevels.find? price).map PriceLevel.contents = liveLevel live .buy price
  sell : ∀ price, (book.sellLevels.find? price).map PriceLevel.contents = liveLevel live .sell price
  indexed : ∀ orderId, book.contains orderId = true ↔ ∃ order ∈ live, order.id = orderId
  count : book.orderCount = live.length

theorem Groups.contents_eq {lt : Int64 → Int64 → Prop} {levels : LevelMap lt} {side : Side}
    {nodes : List OrderNode} (groups : Groups levels side nodes)
    (fits : quantitySum nodes < 2 ^ 64) (price : Int64) :
    (levels.find? price).map PriceLevel.contents =
      liveLevel (nodes.map OrderNode.order) side price := by
  have resting : (nodes.map OrderNode.order).filter
      (fun order => decide (order.side = side ∧ order.price = price)) =
      (nodes.filter (OrderNode.onLevel side price)).map OrderNode.order := by
    rw [List.filter_map]
    congr 1
    apply List.filter_congr
    intro node _
    simp [OrderNode.onLevel]
  simp only [liveLevel, resting, List.isEmpty_map]
  cases found : levels.find? price with
  | none =>
      have empty := groupLevel_eq_none_iff.mp ((groups price).symm.trans found)
      simp [empty]
  | some level =>
      have total := groups.totalQuantity_toNat fits found
      have nonempty := groups.orders_ne_nil found
      rw [groups.orders_eq found] at total nonempty
      rw [if_neg (by simpa using nonempty), Option.map_some, PriceLevel.contents,
        groups.orders_eq found, total, quantitySum, List.map_map]
      rfl

theorem Simulates.contains_iff {engine : MatchingEngine} {reference : Reference}
    (sim : Simulates engine reference) (orderId : UInt64) :
    engine.book.contains orderId = true ↔ ∃ order ∈ reference.live, order.id = orderId := by
  obtain ⟨nodes, sim⟩ := sim
  rw [sim.book.contains_iff, ← sim.live]
  simp only [List.mem_map, exists_exists_and_eq_and]

theorem Simulates.holds {engine : MatchingEngine} {reference : Reference}
    (sim : Simulates engine reference) (few : reference.live.length < 2 ^ 32) :
    engine.book.Holds reference.live := by
  have indexed := sim.contains_iff
  obtain ⟨nodes, sim⟩ := sim
  have fits := sim.quantitySum_lt few
  simp only [← sim.live] at indexed ⊢
  refine ⟨sim.book.buy.contents_eq fits, sim.book.sell.contents_eq fits, indexed, ?_⟩
  rw [sim.length_eq, sim.live]

/-! ### Runs -/

/-- The states agree and the run so far is short enough for exact totals. -/
structure Refines (engine : MatchingEngine) (reference : Reference) : Prop where
  simulates : Simulates engine reference
  sound : reference.Sound
  stamped : reference.Stamped

theorem refines_fresh (limits : RiskLimits) : Refines (.fresh limits) (.fresh limits) :=
  ⟨simulates_fresh limits, Reference.sound_fresh limits, Reference.stamped_fresh limits⟩

theorem Refines.apply {engine : MatchingEngine} {reference : Reference}
    (refines : Refines engine reference) (room : reference.sequence.toNat + 1 < 2 ^ 32)
    (command : Command) (outTrades : List Trade) :
    ∃ response, engine.apply command outTrades = .ok response ∧
      response.report = (reference.apply command outTrades).report ∧
      response.outTrades = (reference.apply command outTrades).outTrades ∧
      Refines response.engine (reference.apply command outTrades).engine ∧
      (reference.apply command outTrades).engine.sequence.toNat =
        reference.sequence.toNat + 1 := by
  have few : reference.live.length < 2 ^ 32 := by
    have length := refines.stamped.length
    omega
  obtain ⟨response, applied, agrees⟩ := refines.simulates.apply refines.sound command outTrades
  have step := reference.applyWith_step command (engine.shortfall command) outTrades
  rw [refines.simulates.applyWith_shortfall few] at agrees step
  refine ⟨response, applied, agrees.report, agrees.outTrades, ⟨agrees.engine,
    refines.sound.step step, refines.stamped.step (by omega) step⟩, ?_⟩
  rw [step.sequence]
  exact Reference.toNat_sequence_add_one (by omega)

/-- The response is the one the reference gives, and the book holds its live orders. -/
structure Response.Matches (response : Response) (expected : Reference.Response) : Prop where
  report : response.report = expected.report
  outTrades : response.outTrades = expected.outTrades
  book : response.engine.book.Holds expected.engine.live

theorem Refines.trace {engine : MatchingEngine} {reference : Reference}
    (refines : Refines engine reference) (commands : List Command) (outTrades : List Trade)
    (room : reference.sequence.toNat + commands.length < 2 ^ 32) :
    ∃ responses, engine.trace commands outTrades = .ok responses ∧
      List.Forall₂ Response.Matches responses (reference.trace commands outTrades) := by
  induction commands generalizing engine reference outTrades with
  | nil => exact ⟨[], rfl, .nil⟩
  | cons command commands ih =>
      rw [List.length_cons] at room
      obtain ⟨response, applied, report, trades, refines', sequence⟩ :=
        refines.apply (by omega) command outTrades
      obtain ⟨responses, rest, agree⟩ := ih refines' response.outTrades (by omega)
      have few : (reference.apply command outTrades).engine.live.length < 2 ^ 32 := by
        have length := refines'.stamped.length
        omega
      refine ⟨response :: responses, ?_, .cons ⟨report, trades, refines'.simulates.holds few⟩ ?_⟩
      · simp only [MatchingEngine.trace, applied, rest, bind, Except.bind, pure, Except.pure]
      · rwa [trades] at agree

/-- The engine refines the flat-list engine: no command hits a fault, and the reports,
the appended trades and the contents of the book are those of the reference. -/
theorem trace_refines_reference (limits : RiskLimits) (commands : List Command)
    (outTrades : List Trade) (short : commands.length < 2 ^ 32) :
    ∃ responses, (MatchingEngine.fresh limits).trace commands outTrades = .ok responses ∧
      List.Forall₂ Response.Matches responses
        ((Reference.fresh limits).trace commands outTrades) := by
  apply (refines_fresh limits).trace
  simpa [Reference.fresh] using short

/-- A resting sell order, a buy order that takes part of it, and a cancel of the rest. -/
theorem trace_refines_reference_partial_fill :
    let commands : List Command :=
      [.newOrder { id := 1, side := .sell, price := 100, quantity := 10 },
        .newOrder { id := 2, side := .buy, price := 100, quantity := 4 }, .cancel 1]
    ((Reference.fresh {}).trace commands []).map (fun expected => expected.report.status) =
        [.resting, .filled, .canceled] ∧
      ∃ responses, (MatchingEngine.fresh {}).trace commands [] = .ok responses ∧
        List.Forall₂ Response.Matches responses ((Reference.fresh {}).trace commands []) :=
  ⟨by decide, trace_refines_reference {} _ [] (by decide)⟩

end Lob
