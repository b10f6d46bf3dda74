import Lob.Reference.Invariant
import Mathlib.Data.Finset.Lattice.Lemmas

/-!
# The history of a run

A run leaves a list of events, each a command with its report. The ids it accepted, in
the order of acceptance, explain the rest of the state: they are the seen ids, the
live orders stand in the order in which they were accepted, and trades name nothing
else. None of this depends on the length of the run.
-/

namespace Lob

/-- A command of a run and its report. -/
structure Event where
  command : Command
  report : ExecutionReport

/-- The order that the event accepted, if it accepted one. -/
def Event.acceptedOrder (event : Event) : Option Order :=
  match event.command with
  | .newOrder order => if event.report.accepted then some order else none
  | .cancel _ => none

/-- The orders that a run accepted, in the order of acceptance. -/
def acceptedOrders (events : List Event) : List Order := events.filterMap Event.acceptedOrder

/-- The accepted ids of a run, in the order of acceptance. -/
def acceptedIds (events : List Event) : List UInt64 := (acceptedOrders events).map Order.id

theorem acceptedOrders_concat (events : List Event) (event : Event) :
    acceptedOrders (events ++ [event]) = acceptedOrders events ++ event.acceptedOrder.toList := by
  cases accepted : event.acceptedOrder <;> simp [acceptedOrders, accepted]

theorem acceptedIds_concat (events : List Event) (event : Event) :
    acceptedIds (events ++ [event]) =
      acceptedIds events ++ (event.acceptedOrder.map Order.id).toList := by
  rw [acceptedIds, acceptedOrders_concat, List.map_append]
  cases event.acceptedOrder <;> rfl

theorem acceptedIds_sublist_concat (events : List Event) (event : Event) :
    (acceptedIds events).Sublist (acceptedIds (events ++ [event])) := by
  rw [acceptedIds_concat]
  exact List.sublist_append_left _ _

theorem mem_acceptedOrders {events : List Event} {order : Order} :
    order ∈ acceptedOrders events ↔ ∃ event ∈ events, event.acceptedOrder = some order :=
  List.mem_filterMap

/-- The order stands in the book for the given accepted one: it differs from it in the
open quantity and in the sequence that the engine stamped. -/
def Order.StandsFor (order accepted : Order) : Prop :=
  order = { accepted with quantity := order.quantity, sequence := order.sequence }

theorem Order.StandsFor.of_terms {order order' accepted : Order} (same : order'.terms = order.terms)
    (stands : order.StandsFor accepted) : order'.StandsFor accepted := by
  rw [Order.StandsFor, Order.terms_eq_iff.mp same, stands]

namespace Reference

variable {engine : Reference}
variable {outTrades : List Trade} {shortfall : Bool} {command : Command} {response : Response}
  {events : List Event}

/-! ### What a step accepts -/

theorem accepted_acceptedReport (order : Order) (sequence : UInt64) (remaining : UInt32)
    (tradeCount : Nat) :
    (MatchingEngine.acceptedReport order sequence remaining tradeCount).accepted = true := by
  simp only [MatchingEngine.acceptedReport, ExecutionReport.accepted]
  repeat' split
  all_goals rfl

theorem accepted_execute (engine : Reference) (order : Order) (outTrades : List Trade) :
    (engine.execute order outTrades).report.accepted = true := by
  rw [execute, acceptedReport_eq]
  exact accepted_acceptedReport _ _ _ _

/-- An executed order counts as accepted, whatever it traded. -/
theorem acceptedOrder_execute (engine : Reference) (order : Order) (outTrades : List Trade) :
    (Event.mk (.newOrder order) (engine.execute order outTrades).report).acceptedOrder =
      some order := by
  simp only [Event.acceptedOrder, accepted_execute, if_true]

/-- The order that a step accepts is the new order that passed the reject exits. -/
theorem Step.acceptedOrder_eq_some_iff (step : engine.Step outTrades command shortfall response)
    {order : Order} :
    (Event.mk command response.report).acceptedOrder = some order ↔
      command = .newOrder order ∧ engine.rejectReason order shortfall = .none := by
  cases step with
  | rejected refused failed =>
      simp only [Event.acceptedOrder, rejectedReport, ExecutionReport.accepted]
      simp only [bne_self_eq_false, Bool.false_eq_true, if_false, reduceCtorEq, false_iff, not_and]
      rintro same passed
      obtain rfl := Command.newOrder.inj same
      exact failed (refused.symm.trans passed)
  | accepted passed =>
      rw [acceptedOrder_execute, Option.some.injEq, Command.newOrder.injEq]
      exact ⟨fun same => ⟨same, same ▸ passed⟩, fun same => same.1⟩
  | missing absent => simp [Event.acceptedOrder]
  | canceled found => simp [Event.acceptedOrder]

/-- What a step does to the seen ids is what it accepts. -/
theorem Step.seenOrderIds_eq (step : engine.Step outTrades command shortfall response) :
    response.engine.seenOrderIds = engine.seenOrderIds ∪
      ((Event.mk command response.report).acceptedOrder.map Order.id).toList.toFinset := by
  cases step with
  | rejected refused failed => simp [Event.acceptedOrder, rejectedReport, ExecutionReport.accepted]
  | accepted passed =>
      rw [acceptedOrder_execute]
      simp [execute]
  | missing absent => simp [Event.acceptedOrder]
  | canceled found => simp [Event.acceptedOrder]

/-! ### The parties of a trade -/

/-- The trade is between an order with the terms of `incoming` and an order with the
terms of a member of `live`. -/
def Parties (incoming : Order) (live : List Order) (trade : Trade) : Prop :=
  ∃ tradeId aggressor best quantity, trade = tradeOf tradeId aggressor best quantity ∧
    aggressor.terms = incoming.terms ∧ ∃ origin ∈ live, best.terms = origin.terms

/-- Every trade of the loop is between the incoming order and an order that was live. -/
theorem matchLoop_trades (fuel : Nat) (state : MatchState) :
    ∀ trade ∈ (matchLoop fuel state).outTrades, trade ∈ state.outTrades ∨
      Parties state.order state.live trade := by
  have invariant := matchLoop_induction
    (P := fun current => current.order.terms = state.order.terms ∧
      (current.live.map Order.terms).Sublist (state.live.map Order.terms) ∧
      ∀ trade ∈ current.outTrades, trade ∈ state.outTrades ∨
        Parties state.order state.live trade)
    ?_ fuel ⟨rfl, List.Sublist.refl _, fun trade member => Or.inl member⟩
  · exact invariant.2.2
  · rintro current best ⟨sameOrder, sub, known⟩ _ picked
    refine ⟨sameOrder, (filterMap_reduce_terms _ _ _).trans sub, ?_⟩
    intro trade member
    rcases List.mem_append.mp member with old | new
    · exact known trade old
    · obtain ⟨origin, inLive, same⟩ := exists_origin sub (pickBest_mem picked).1
      exact Or.inr ⟨_, _, _, _, List.mem_singleton.mp new, sameOrder, origin, inLive, same⟩

theorem Parties.ids {incoming : Order} {live : List Order} {trade : Trade}
    (parties : Parties incoming live trade) {orderId : UInt64}
    (named : trade.buyOrderId = orderId ∨ trade.sellOrderId = orderId) :
    orderId = incoming.id ∨ ∃ origin ∈ live, origin.id = orderId := by
  obtain ⟨_, aggressor, best, _, rfl, sameIncoming, origin, inLive, sameBest⟩ := parties
  have incomingId : aggressor.id = incoming.id := by rw [Order.terms_eq_iff.mp sameIncoming]
  have bestId : best.id = origin.id := by rw [Order.terms_eq_iff.mp sameBest]
  simp only [tradeOf] at named
  by_cases buy : aggressor.side = .buy
  · simp only [buy, if_true] at named
    rcases named with same | same
    · exact Or.inl (same.symm.trans incomingId)
    · exact Or.inr ⟨origin, inLive, bestId.symm.trans same⟩
  · simp only [buy, if_false] at named
    rcases named with same | same
    · exact Or.inr ⟨origin, inLive, bestId.symm.trans same⟩
    · exact Or.inl (same.symm.trans incomingId)

/-! ### The history explains the state -/

/-- The seen ids, the live orders and the trades, as the accepted ids explain them. -/
structure Recorded (engine : Reference) (events : List Event) (trades : List Trade) : Prop where
  seen : engine.seenOrderIds = (acceptedIds events).toFinset
  unique : (acceptedIds events).Nodup
  arrival : (engine.live.map Order.id).Sublist (acceptedIds events)
  origin : ∀ order ∈ engine.live, ∃ accepted ∈ acceptedOrders events, order.StandsFor accepted
  named : ∀ trade ∈ trades, ∀ orderId, trade.buyOrderId = orderId ∨ trade.sellOrderId = orderId →
    orderId ∈ acceptedIds events

theorem recorded_fresh (limits : RiskLimits) : (fresh limits).Recorded [] [] :=
  ⟨rfl, .nil, .slnil, fun _ member => absurd member List.not_mem_nil,
    fun _ member => absurd member List.not_mem_nil⟩

/-- An accepted order is new to the history. -/
theorem Recorded.not_mem_acceptedIds (recorded : engine.Recorded events outTrades) {order : Order}
    (passed : engine.Passed order shortfall) : order.id ∉ acceptedIds events := by
  have new := passed.new
  rwa [recorded.seen, List.mem_toFinset] at new

/-- The history grows by what a step accepts. -/
theorem Recorded.unique_step (recorded : engine.Recorded events outTrades)
    (step : engine.Step outTrades command shortfall response) :
    (acceptedIds (events ++ [⟨command, response.report⟩])).Nodup := by
  rw [acceptedIds_concat]
  cases accepted : (Event.mk command response.report).acceptedOrder with
  | none => simpa using recorded.unique
  | some order =>
      have new := recorded.not_mem_acceptedIds
        (passed_of_rejectReason (step.acceptedOrder_eq_some_iff.mp accepted).2)
      refine List.nodup_append.mpr ⟨recorded.unique, List.nodup_singleton _, ?_⟩
      rintro orderId old other last rfl
      rw [List.mem_singleton.mp last] at old
      exact new old

theorem Recorded.arrival_step (recorded : engine.Recorded events outTrades)
    (step : engine.Step outTrades command shortfall response) :
    (response.engine.live.map Order.id).Sublist
      (acceptedIds (events ++ [⟨command, response.report⟩])) := by
  have extended := acceptedIds_sublist_concat events ⟨command, response.report⟩
  cases step with
  | rejected _ _ => exact recorded.arrival.trans extended
  | missing _ => exact recorded.arrival.trans extended
  | canceled _ => exact ((List.filter_sublist.map _).trans recorded.arrival).trans extended
  | accepted passed =>
      rename_i order
      have kept := (ids_sublist_of_terms (engine.matchEnd_terms order outTrades)).trans
        recorded.arrival
      rcases engine.execute_engine order outTrades with same | ⟨_, _, rested⟩
      · rw [same]
        exact kept.trans extended
      · rw [rested, acceptedIds_concat, acceptedOrder_execute, List.map_append,
          List.map_singleton, matchEnd_order_id]
        exact kept.append (List.Sublist.refl _)

theorem Recorded.origin_step (recorded : engine.Recorded events outTrades)
    (step : engine.Step outTrades command shortfall response) :
    ∀ order ∈ response.engine.live,
      ∃ accepted ∈ acceptedOrders (events ++ [⟨command, response.report⟩]),
        order.StandsFor accepted := by
  -- a live order that keeps its terms keeps its origin
  have kept : ∀ order live : Order, live ∈ engine.live → order.terms = live.terms →
      ∃ accepted ∈ acceptedOrders (events ++ [⟨command, response.report⟩]),
        order.StandsFor accepted := by
    intro order live member same
    obtain ⟨accepted, inEvents, stands⟩ := recorded.origin live member
    refine ⟨accepted, ?_, stands.of_terms same⟩
    rw [acceptedOrders_concat]
    exact List.mem_append_left _ inEvents
  cases step with
  | rejected _ _ => exact fun order member => kept order order member rfl
  | missing _ => exact fun order member => kept order order member rfl
  | canceled _ => exact fun order member => kept order order (List.mem_filter.mp member).1 rfl
  | accepted passed =>
      rename_i incoming
      intro order member
      rcases engine.execute_live_cases member with inLive | last
      · obtain ⟨origin, inEngine, same⟩ :=
          exists_origin (engine.matchEnd_terms incoming outTrades) inLive
        exact kept order origin inEngine same
      · refine ⟨incoming, ?_, ?_⟩
        · rw [acceptedOrders_concat, acceptedOrder_execute]
          exact List.mem_append_right _ (List.mem_singleton_self _)
        · rw [last, Order.StandsFor,
            Order.terms_eq_iff.mp (engine.matchEnd_order incoming outTrades)]

theorem Recorded.named_step (recorded : engine.Recorded events outTrades)
    (step : engine.Step outTrades command shortfall response) :
    ∀ trade ∈ response.outTrades, ∀ orderId,
      trade.buyOrderId = orderId ∨ trade.sellOrderId = orderId →
        orderId ∈ acceptedIds (events ++ [⟨command, response.report⟩]) := by
  have extended := (acceptedIds_sublist_concat events ⟨command, response.report⟩).subset
  have kept : ∀ trade ∈ outTrades, ∀ orderId,
      trade.buyOrderId = orderId ∨ trade.sellOrderId = orderId →
        orderId ∈ acceptedIds (events ++ [⟨command, response.report⟩]) :=
    fun trade member orderId named => extended (recorded.named trade member orderId named)
  cases step with
  | rejected _ _ => exact kept
  | missing _ => exact kept
  | canceled _ => exact kept
  | accepted passed =>
      rename_i order
      intro trade member orderId named
      rcases matchLoop_trades _ _ trade member with old | parties
      · exact kept trade old orderId named
      · rcases parties.ids named with isIncoming | ⟨origin, inLive, isOrigin⟩
        · rw [acceptedIds_concat, acceptedOrder_execute, isIncoming]
          exact List.mem_append_right _ (List.mem_singleton_self _)
        · apply extended
          rw [← isOrigin]
          exact recorded.arrival.subset (List.mem_map_of_mem inLive)

theorem Recorded.step (recorded : engine.Recorded events outTrades)
    (step : engine.Step outTrades command shortfall response) :
    response.engine.Recorded (events ++ [⟨command, response.report⟩]) response.outTrades where
  seen := by
    rw [step.seenOrderIds_eq, recorded.seen, acceptedIds_concat, List.toFinset_append]
  unique := recorded.unique_step step
  arrival := recorded.arrival_step step
  origin := recorded.origin_step step
  named := recorded.named_step step

end Reference

end Lob
