import Lob.MatchingEngine.History
import Lob.MatchingEngine.WellFormed

/-!
# Quantity conservation over whole runs

The balance that the reference keeps for each id is a statement about the engine's own
data: the trades of the run, the orders in its book and the reports it gave.
-/

namespace Lob

/-- The quantity that rests in the book under an id. -/
def OrderBook.restingQuantity (book : OrderBook) (orderId : UInt64) : Nat :=
  Lob.restingQuantity orderId (book.nodes.map OrderNode.order)

theorem Simulates.restingQuantity_eq {engine : MatchingEngine} {reference : Reference}
    (sim : Simulates engine reference) (orderId : UInt64) :
    engine.book.restingQuantity orderId = restingQuantity orderId reference.live := by
  obtain ⟨nodes, sim⟩ := sim
  rw [OrderBook.restingQuantity, ← sim.live]
  exact (((sim.book.nodes_perm.map _).filter _).map _).sum_nat

/-- An accepted id is accepted by one event only, so its column has one entry. -/
theorem columnTotal_of_accepted {events : List Event} (unique : (acceptedIds events).Nodup)
    {event : Event} (member : event ∈ events) {order : Order}
    (accepted : event.acceptedOrder = some order) (column : Event → Nat)
    (others : ∀ other, (∀ order', other.acceptedOrder = some order' → order'.id ≠ order.id) →
      column other = 0) :
    columnTotal column events = column event := by
  obtain ⟨before, after, rfl⟩ := List.append_of_mem member
  have ids : acceptedIds (before ++ event :: after) =
      acceptedIds before ++ order.id :: acceptedIds after := by
    simp [acceptedIds, acceptedOrders, accepted]
  rw [ids, List.nodup_append] at unique
  obtain ⟨_, tail, apart⟩ := unique
  have zero : ∀ events', order.id ∉ acceptedIds events' → columnTotal column events' = 0 := by
    intro events' absent
    rw [columnTotal, List.sum_eq_zero_iff_forall_eq_nat]
    intro value isValue
    obtain ⟨other, inEvents, rfl⟩ := List.mem_map.mp isValue
    apply others
    intro order' accepted' sameId
    exact absent (List.mem_map.mpr ⟨order', mem_acceptedOrders.mpr ⟨other, inEvents, accepted'⟩,
      sameId⟩)
  have front := zero before (fun inBefore => apart _ inBefore _ List.mem_cons_self rfl)
  have back := zero after (List.nodup_cons.mp tail).1
  simp only [columnTotal, List.map_append, List.map_cons, List.sum_append, List.sum_cons]
    at front back ⊢
  omega

theorem requestedQuantity_of_other (orderId : UInt64) (event : Event)
    (other : ∀ order, event.acceptedOrder = some order → order.id ≠ orderId) :
    event.requestedQuantity orderId = 0 := by
  rw [Event.requestedQuantity]
  split
  · rename_i order accepted
    exact if_neg (other order accepted)
  · rfl

theorem expiredQuantity_of_other (orderId : UInt64) (event : Event)
    (other : ∀ order, event.acceptedOrder = some order → order.id ≠ orderId) :
    event.expiredQuantity orderId = 0 := by
  rw [Event.expiredQuantity]
  split
  · rename_i order accepted
    exact if_neg (fun own => other order accepted own.1)
  · rfl

/-- Every accepted quantity is traded, resting, canceled or expired at entry, and an id
that was never accepted is in no trade and not in the book. -/
theorem quantity_conserved (limits : RiskLimits) (commands : List Command)
    (short : commands.length < 2 ^ 32) :
    ∃ responses, (MatchingEngine.fresh limits).trace commands [] = .ok responses ∧
      (∀ event ∈ history commands responses, ∀ order, event.acceptedOrder = some order →
        order.quantity.toNat =
          tradedQuantity order.id (MatchingEngine.lastTrades [] responses) +
          ((MatchingEngine.fresh limits).lastEngine responses).book.restingQuantity order.id +
          columnTotal (Event.canceledQuantity order.id) (history commands responses) +
          event.expiredQuantity order.id) ∧
      ∀ orderId, orderId ∉ acceptedIds (history commands responses) →
        (∀ trade ∈ MatchingEngine.lastTrades [] responses, trade.names orderId = false) ∧
        ∀ node ∈ ((MatchingEngine.fresh limits).lastEngine responses).book.nodes,
          node.order.id ≠ orderId := by
  obtain ⟨responses, run, length, reference, follows⟩ := exists_follows limits commands
  have shortRun := follows.short (by rwa [length_history length])
  refine ⟨responses, run, ?_, ?_⟩
  · intro event member order accepted
    have balance := shortRun.balanced order.id
    rw [columnTotal_of_accepted follows.recorded.unique member accepted _
        (requestedQuantity_of_other order.id),
      columnTotal_of_accepted follows.recorded.unique member accepted _
        (expiredQuantity_of_other order.id),
      Event.requestedQuantity, accepted] at balance
    rw [follows.simulates.restingQuantity_eq]
    simpa using balance
  · intro orderId absent
    constructor
    · intro trade member
      rw [← Bool.not_eq_true]
      intro named
      simp only [Trade.names, Bool.or_eq_true, decide_eq_true_eq] at named
      exact absent (follows.recorded.named trade member orderId named)
    · intro node member sameId
      obtain ⟨nodes, sim⟩ := follows.simulates
      have inLive : node.order ∈ reference.live := by
        rw [← sim.live]
        exact List.mem_map_of_mem (sim.book.mem_nodes_iff.mp member)
      exact absent (sameId ▸ follows.recorded.arrival.subset (List.mem_map_of_mem inLive))

/-- A market order that takes all of a resting order and expires with the rest. -/
theorem quantity_conserved_market :
    let commands : List Command :=
      [.newOrder { id := 1, side := .sell, price := 100, quantity := 10 },
        .newOrder { id := 2, side := .buy, type := .market, timeInForce := .ioc, quantity := 15 }]
    ∃ responses, (MatchingEngine.fresh {}).trace commands [] = .ok responses ∧
      (∀ event ∈ history commands responses, ∀ order, event.acceptedOrder = some order →
        order.quantity.toNat =
          tradedQuantity order.id (MatchingEngine.lastTrades [] responses) +
          ((MatchingEngine.fresh {}).lastEngine responses).book.restingQuantity order.id +
          columnTotal (Event.canceledQuantity order.id) (history commands responses) +
          event.expiredQuantity order.id) ∧
      ∀ orderId, orderId ∉ acceptedIds (history commands responses) →
        (∀ trade ∈ MatchingEngine.lastTrades [] responses, trade.names orderId = false) ∧
        ∀ node ∈ ((MatchingEngine.fresh {}).lastEngine responses).book.nodes,
          node.order.id ≠ orderId :=
  quantity_conserved {} _ (by decide)

end Lob
