import Lob.MatchingEngine.Counters
import Lob.MatchingEngine.Preflight

/-!
# Execution reports

The report of `processOrder` is computed from the variables of the matching loop and from
the decision to rest, without a look at the book. In every reachable state it tells the
truth about the trades of the call and about the book that the call leaves behind. Nothing
here depends on the length of the run: a wrong preflight answer could change which orders
are accepted, but not what is reported of them.
-/

namespace Lob

/-! ### Standing in the book -/

/-- The order of an id stands in the book with the given open quantity, at the end of its
price level. -/
def OrderBook.StandsLast (book : OrderBook) (orderId : UInt64) (quantity : UInt32) : Prop :=
  ∃ loc level node, book.locations.find? orderId = some loc ∧
    book.levelAt loc.side loc.price = some level ∧ level.orders.getLast? = some node ∧
    node.addr = loc.orderIt ∧ node.order.id = orderId ∧ node.order.quantity = quantity

theorem OrderBook.StandsLast.contains {book : OrderBook} {orderId : UInt64} {quantity : UInt32}
    (stands : book.StandsLast orderId quantity) : book.contains orderId = true := by
  obtain ⟨loc, _, _, located, _⟩ := stands
  rw [OrderBook.contains, OrderedMap.contains, located]
  rfl

/-- The last of the represented nodes is the last of its level. -/
theorem Represents.standsLast {book : OrderBook} {nodes : List OrderNode} {node : OrderNode}
    (rep : Represents book (nodes ++ [node])) :
    book.StandsLast node.order.id node.order.quantity := by
  have member : node ∈ nodes ++ [node] := List.mem_append_right _ (List.mem_singleton_self _)
  have onLevel : node.onLevel node.order.side node.order.price = true :=
    OrderNode.onLevel_iff.mpr ⟨rfl, rfl⟩
  have level := rep.levelAt_eq (rep.sides node member) node.order.price
  rw [groupLevel_eq_some_iff.mpr ⟨?_, rfl⟩, List.filter_append, List.filter_singleton, onLevel]
    at level
  · refine ⟨_, _, node, rep.find?_location_iff.mpr ⟨node, member, rfl⟩, level, ?_, rfl, rfl, rfl⟩
    simp [PriceLevel.ofNodes]
  · exact List.ne_nil_of_mem (List.mem_filter.mpr ⟨member, onLevel⟩)

theorem Simulates.standsLast {engine : MatchingEngine} {reference : Reference} {front : List Order}
    {order : Order} (sim : Simulates engine reference) (live : reference.live = front ++ [order]) :
    engine.book.StandsLast order.id order.quantity := by
  obtain ⟨nodes, sim⟩ := sim
  have shape := sim.live.trans live
  obtain ⟨nodes', last, rfl, _, single⟩ := List.map_eq_append_iff.mp shape
  obtain ⟨node, rfl, rfl⟩ := List.map_eq_singleton_iff.mp single
  exact sim.book.standsLast

/-! ### What a report says -/

/-- The report of a new order agrees with the trades that the call appended and with the
book that it left behind. -/
structure Response.Truthful (order : Order) (outTrades : List Trade) (response : Response) :
    Prop where
  requested : response.report.requestedQuantity = order.quantity
  quantities : response.report.executedQuantity.toNat + response.report.remainingQuantity.toNat =
    order.quantity.toNat
  trades : ∃ new, response.outTrades = outTrades ++ new ∧
    response.report.executedQuantity.toNat = (new.map (fun trade => trade.quantity.toNat)).sum ∧
    response.report.tradeCount.toNat = new.length
  filled : response.report.status = .filled ↔
    response.report.accepted = true ∧ response.report.remainingQuantity = 0
  resting : response.report.status = .resting ↔
    response.report.accepted = true ∧ response.report.executedQuantity = 0 ∧
      response.engine.book.StandsLast order.id response.report.requestedQuantity
  partiallyFilled : response.report.status = .partiallyFilled ↔
    0 < response.report.executedQuantity ∧
      response.report.executedQuantity < response.report.requestedQuantity
  remainder : response.report.status = .partiallyFilled →
    (response.engine.book.StandsLast order.id response.report.remainingQuantity ↔
      order.type = .limit ∧ order.timeInForce = .gtc)
  expired : response.report.status = .expired ↔
    response.report.accepted = true ∧ response.report.executedQuantity = 0 ∧
      response.engine.book.contains order.id = false
  rejected : response.report.status = .rejected ↔ response.report.rejectReason ≠ .none
  rejectedTrades : response.report.status = .rejected → response.outTrades = outTrades
  canceled : response.report.status ≠ .canceled

/-- The status of an accepted order, by what is left of it and whether it may rest. -/
theorem acceptedReport_status (order : Order) (sequence : UInt64) (remaining : UInt32)
    (tradeCount : Nat) :
    let report := MatchingEngine.acceptedReport order sequence remaining tradeCount
    (report.status = .filled ∧ remaining = 0) ∨
      (report.status = .resting ∧ remaining ≠ 0 ∧ report.executedQuantity = 0 ∧
        order.mayRest = true) ∨
      (report.status = .partiallyFilled ∧ remaining ≠ 0 ∧ report.executedQuantity ≠ 0) ∨
      (report.status = .expired ∧ remaining ≠ 0 ∧ report.executedQuantity = 0 ∧
        order.mayRest = false) := by
  simp only [MatchingEngine.acceptedReport]
  by_cases zero : remaining = 0
  · exact Or.inl ⟨if_pos zero, zero⟩
  · have positive : remaining > 0 := UInt32.pos_iff_ne_zero.mpr zero
    by_cases none : order.quantity - remaining = 0
    · cases mayRest : order.mayRest with
      | true => simp [zero, positive, none]
      | false => simp [zero, none]
    · cases mayRest : order.mayRest with
      | true => simp [zero, positive, none]
      | false => simp [zero, none]

section Accepted

variable {reference : Reference} {order : Order} {outTrades new : List Trade}
  {response : Response} {sequence : UInt64} {remaining : UInt32}

/-- An accepted order after its trades: the report, the trades, and where `remaining` of it
is left. -/
structure Settled (order : Order) (outTrades : List Trade) (response : Response)
    (sequence : UInt64) (remaining : UInt32) (new : List Trade) : Prop where
  report : response.report = MatchingEngine.acceptedReport order sequence remaining new.length
  appended : response.outTrades = outTrades ++ new
  total : (new.map (fun trade => trade.quantity.toNat)).sum + remaining.toNat =
    order.quantity.toNat
  count : new.length < 2 ^ 32
  positive : order.quantity ≠ 0
  contains : response.engine.book.contains order.id = true ↔ order.mayRest = true ∧ remaining ≠ 0
  stands : order.mayRest = true → remaining ≠ 0 →
    response.engine.book.StandsLast order.id remaining

theorem Agrees.settled (agrees : Agrees response (reference.execute order outTrades))
    (sound : reference.Sound) {shortfall : Bool} (passed : reference.Passed order shortfall) :
    ∃ new, Settled order outTrades response (reference.sequence + 1)
      (reference.matchEnd order outTrades).order.quantity new := by
  obtain ⟨new, loop⟩ := sound.exists_loopTrades order outTrades
  have length : (reference.matchEnd order outTrades).outTrades.length - outTrades.length =
      new.length := by
    rw [loop.outTrades, List.length_append]
    exact Nat.add_sub_cancel_left _ _
  refine ⟨new, ?_, agrees.outTrades.trans loop.outTrades, loop.quantities, loop.length_lt,
    passed.valid.quantity, ?_, ?_⟩
  · rw [agrees.report, ← length]
    exact reference.acceptedReport_eq _ _ _
  · rw [agrees.engine.contains_iff, Reference.exists_id_execute_iff sound passed]
  · intro mayRest positive
    have rests : (reference.matchEnd order outTrades).order.quantity > 0 ∧
        order.mayRest = true := ⟨UInt32.pos_iff_ne_zero.mpr positive, mayRest⟩
    have live : (reference.execute order outTrades).engine.live =
        (reference.matchEnd order outTrades).live ++
          [(reference.matchEnd order outTrades).order] := if_pos rests
    have stands := agrees.engine.standsLast live
    rwa [reference.matchEnd_order_id] at stands

namespace Settled

variable (settled : Settled order outTrades response sequence remaining new)

include settled

theorem executed_toNat : response.report.executedQuantity.toNat =
    (new.map (fun trade => trade.quantity.toNat)).sum := by
  have total := settled.total
  have part : remaining ≤ order.quantity := by
    rw [UInt32.le_iff_toNat_le]
    omega
  have executed : response.report.executedQuantity = order.quantity - remaining := by
    rw [settled.report]
    rfl
  rw [executed, UInt32.toNat_sub_of_le _ _ part]
  omega

theorem requested : response.report.requestedQuantity = order.quantity := by
  rw [settled.report]
  rfl

theorem remaining_eq : response.report.remainingQuantity = remaining := by
  rw [settled.report]
  rfl

theorem accepted : response.report.accepted = true := by
  rw [settled.report]
  exact Reference.accepted_acceptedReport _ _ _ _

theorem executed_eq_zero_iff :
    response.report.executedQuantity = 0 ↔ remaining = order.quantity := by
  have total := settled.total
  rw [← UInt32.toNat_inj, ← UInt32.toNat_inj, settled.executed_toNat, UInt32.toNat_zero]
  omega

theorem executed_ne_zero (zero : remaining = 0) : response.report.executedQuantity ≠ 0 := by
  rw [Ne, settled.executed_eq_zero_iff, zero]
  exact settled.positive.symm

/-- An open remainder stands in the book exactly when it may rest. -/
theorem stands_iff (opened : remaining ≠ 0) :
    response.engine.book.StandsLast order.id remaining ↔ order.mayRest = true :=
  ⟨fun last => (settled.contains.mp last.contains).1, fun mayRest => settled.stands mayRest opened⟩

theorem between_iff : (0 < response.report.executedQuantity ∧
      response.report.executedQuantity < response.report.requestedQuantity) ↔
    response.report.executedQuantity ≠ 0 ∧ remaining ≠ 0 := by
  have total := settled.total
  have opened : remaining ≠ 0 ↔ remaining.toNat ≠ 0 := by
    rw [Ne, ← UInt32.toNat_inj, UInt32.toNat_zero]
  rw [settled.requested, UInt32.pos_iff_ne_zero, UInt32.lt_iff_toNat_lt, settled.executed_toNat,
    opened]
  refine and_congr_right fun _ => ?_
  omega

theorem status : (response.report.status = .filled ∧ remaining = 0) ∨
    (response.report.status = .resting ∧ remaining ≠ 0 ∧ response.report.executedQuantity = 0 ∧
      order.mayRest = true) ∨
    (response.report.status = .partiallyFilled ∧ remaining ≠ 0 ∧
      response.report.executedQuantity ≠ 0) ∨
    (response.report.status = .expired ∧ remaining ≠ 0 ∧ response.report.executedQuantity = 0 ∧
      order.mayRest = false) := by
  rw [settled.report]
  exact acceptedReport_status order sequence remaining new.length

theorem truthful : response.Truthful order outTrades := by
  have total := settled.total
  have executed := settled.executed_toNat
  have counted : response.report.tradeCount.toNat = new.length := by
    rw [settled.report]
    exact UInt32.toNat_ofNat_of_lt' settled.count
  have reason : response.report.rejectReason = .none := by rw [settled.report]; rfl
  have status := settled.status
  refine ⟨settled.requested, by rw [settled.remaining_eq]; omega,
    ⟨new, settled.appended, executed, counted⟩, ?_, ?_, ?_, ?_, ?_, ?_, ?_, ?_⟩
  · rw [settled.remaining_eq, and_iff_right settled.accepted]
    rcases status with ⟨is, zero⟩ | ⟨is, opened, _⟩ | ⟨is, opened, _⟩ | ⟨is, opened, _⟩
    · simp [is, zero]
    all_goals simp [is, opened]
  · rw [and_iff_right settled.accepted, settled.requested]
    rcases status with ⟨is, zero⟩ | ⟨is, opened, none, mayRest⟩ | ⟨is, _, some⟩ |
      ⟨is, opened, none, leaves⟩
    · simp [is, settled.executed_ne_zero zero]
    · rw [← settled.executed_eq_zero_iff.mp none, settled.stands_iff opened]
      simp [is, none, mayRest]
    · simp [is, some]
    · rw [← settled.executed_eq_zero_iff.mp none, settled.stands_iff opened]
      simp [is, leaves]
  · rw [settled.between_iff]
    rcases status with ⟨is, zero⟩ | ⟨is, _, none, _⟩ | ⟨is, opened, some⟩ | ⟨is, _, none, _⟩
    · simp [is, zero]
    · simp [is, none]
    · simp [is, opened, some]
    · simp [is, none]
  · intro isPart
    have opened : remaining ≠ 0 := by
      rcases status with ⟨is, _⟩ | ⟨_, opened, _⟩ | ⟨_, opened, _⟩ | ⟨_, opened, _⟩
      · rw [is] at isPart
        contradiction
      all_goals exact opened
    rw [settled.remaining_eq, settled.stands_iff opened, Order.mayRest_iff]
  · rw [and_iff_right settled.accepted, ← Bool.not_eq_true, settled.contains]
    rcases status with ⟨is, zero⟩ | ⟨is, opened, none, mayRest⟩ | ⟨is, _, some⟩ |
      ⟨is, _, none, leaves⟩
    · simp [is, settled.executed_ne_zero zero]
    · simp [is, opened, mayRest]
    · simp [is, some]
    · simp [is, none, leaves]
  · rw [reason]
    rcases status with ⟨is, _⟩ | ⟨is, _⟩ | ⟨is, _⟩ | ⟨is, _⟩ <;> simp [is]
  · rcases status with ⟨is, _⟩ | ⟨is, _⟩ | ⟨is, _⟩ | ⟨is, _⟩ <;> simp [is]
  · rcases status with ⟨is, _⟩ | ⟨is, _⟩ | ⟨is, _⟩ | ⟨is, _⟩ <;> simp [is]

end Settled

end Accepted

/-- A rejected order leaves its quantity, the trades and the book alone. -/
theorem truthful_of_rejected {engine : MatchingEngine} {order : Order} {sequence : UInt64}
    {reason : RejectReason} (failed : reason ≠ .none) (outTrades : List Trade) :
    (Response.mk engine (engine.rejectedReport order sequence reason).2 outTrades).Truthful order
      outTrades := by
  refine ⟨rfl, ?_, ⟨[], (List.append_nil _).symm, rfl, rfl⟩, ?_, ?_, ?_, ?_, ?_, ?_, ?_, ?_⟩
  · simp [MatchingEngine.rejectedReport]
  all_goals simp [MatchingEngine.rejectedReport, ExecutionReport.accepted, failed]

/-- Every execution report tells the truth, in every reachable state. -/
theorem reports_truthful (limits : RiskLimits) (commands : List Command) :
    ∃ engine, (MatchingEngine.fresh limits).runAll commands = .ok engine ∧
      ∀ order outTrades, ∃ response, engine.processOrder order outTrades = .ok response ∧
        response.Truthful order outTrades := by
  obtain ⟨engine, reached, reference, sim, sound⟩ := (consistent_fresh limits).runAll commands
  refine ⟨engine, reached, ?_⟩
  intro order outTrades
  by_cases passed : engine.rejectReason order = .none
  · obtain ⟨facts, response, processed, agrees⟩ := sim.execute sound passed outTrades
    obtain ⟨new, settled⟩ := agrees.settled sound facts
    exact ⟨response, processed, settled.truthful⟩
  · exact ⟨_, processOrder_of_rejected rfl passed outTrades, truthful_of_rejected passed outTrades⟩

end Lob
