import Lob.MatchingEngine.Refinement
import Lob.MatchingEngine.Run
import Lob.OrderBook.CheckInvariants

/-!
# Well-formed engine states

`MatchingEngine.WellFormed` is the structural invariant of the engine in terms of its
own data: the two level maps, the index and the seen ids. Every state that a short run
reaches has it, because the book represents a sound live list. For the same reason every
such state passes `checkInvariants`, which compares the cached total of a level only with a
sum of the same width.
-/

namespace Lob

/-- One price level of one side. -/
structure PriceLevel.WellFormed (side : Side) (price : Int64) (level : PriceLevel) : Prop where
  nonempty : level.orders ≠ []
  restable : ∀ node ∈ level.orders, node.order.Restable
  onLevel : ∀ node ∈ level.orders, node.order.side = side ∧ node.order.price = price
  increasing : level.orders.Pairwise (fun a b => a.order.sequence < b.order.sequence)
  total : level.totalQuantity.toNat = quantitySum level.orders

/-- The structural invariant of a matching engine. -/
structure MatchingEngine.WellFormed (engine : MatchingEngine) : Prop where
  uncrossed : ∀ bid ask, engine.book.bestBid = some bid → engine.book.bestAsk = some ask →
    bid < ask
  buy : ∀ entry ∈ engine.book.buyLevels.entries, PriceLevel.WellFormed .buy entry.1 entry.2
  sell : ∀ entry ∈ engine.book.sellLevels.entries, PriceLevel.WellFormed .sell entry.1 entry.2
  ids : (engine.book.nodes.map (fun node => node.order.id)).Nodup
  addrs : (engine.book.nodes.map OrderNode.addr).Nodup
  indexed : engine.book.locations.entries.Perm (engine.book.nodes.map OrderNode.locate)
  seen : ∀ node ∈ engine.book.nodes, node.order.id ∈ engine.seenOrderIds

/-! ### The book of a sound live list -/

section Sound

variable {engine : MatchingEngine} {reference : Reference} {nodes : List OrderNode}

theorem SimulatesOn.level_wellFormed (sim : SimulatesOn engine reference nodes)
    (sound : reference.Sound) (stamped : reference.Stamped)
    (few : reference.live.length < 2 ^ 32) {lt : Int64 → Int64 → Prop} {levels : LevelMap lt}
    [IsStrictTotalOrder Int64 lt] {side : Side} (groups : Groups levels side nodes) :
    ∀ entry ∈ levels.entries, PriceLevel.WellFormed side entry.1 entry.2 := by
  intro entry member
  have found := levels.find?_eq_some_iff.mpr member
  have orders := groups.orders_eq found
  have increasing : nodes.Pairwise (fun a b => a.order.sequence < b.order.sequence) := by
    have stamps := stamped.increasing
    rwa [← sim.live, List.pairwise_map] at stamps
  refine ⟨groups.orders_ne_nil found, ?_, ?_, ?_,
    groups.totalQuantity_toNat (sim.quantitySum_lt few) found⟩
  · intro node inLevel
    rw [orders] at inLevel
    apply sound.restable
    rw [← sim.live]
    exact List.mem_map_of_mem (List.mem_filter.mp inLevel).1
  · intro node inLevel
    rw [orders] at inLevel
    exact OrderNode.onLevel_iff.mp (List.mem_filter.mp inLevel).2
  · rw [orders]
    exact increasing.sublist List.filter_sublist

/-- The front level of a side belongs to a live order. -/
theorem SimulatesOn.exists_live_of_front (sim : SimulatesOn engine reference nodes)
    {lt : Int64 → Int64 → Prop} {levels : LevelMap lt} [IsStrictTotalOrder Int64 lt] {side : Side}
    (groups : Groups levels side nodes) {price : Int64}
    (best : levels.front?.map Prod.fst = some price) :
    ∃ order ∈ reference.live, order.side = side ∧ order.price = price := by
  obtain ⟨⟨_, level⟩, front, rfl⟩ := Option.map_eq_some_iff.mp best
  have found := levels.find?_eq_some_iff.mpr (OrderedMap.mem_of_front? front)
  obtain ⟨node, inLevel⟩ := List.exists_mem_of_ne_nil _ (groups.orders_ne_nil found)
  rw [groups.orders_eq found] at inLevel
  obtain ⟨inNodes, onLevel⟩ := List.mem_filter.mp inLevel
  refine ⟨node.order, ?_, OrderNode.onLevel_iff.mp onLevel⟩
  rw [← sim.live]
  exact List.mem_map_of_mem inNodes

theorem Refines.wellFormed (refines : Refines engine reference)
    (few : reference.live.length < 2 ^ 32) : engine.WellFormed := by
  obtain ⟨⟨nodes, sim⟩, sound, stamped⟩ := refines
  have perm := sim.book.nodes_perm
  refine ⟨?_, sim.level_wellFormed sound stamped few sim.book.buy,
    sim.level_wellFormed sound stamped few sim.book.sell, ?_, ?_, ?_, ?_⟩
  · intro bid ask isBid isAsk
    obtain ⟨bidOrder, inBids, bidSide, rfl⟩ := sim.exists_live_of_front sim.book.buy isBid
    obtain ⟨askOrder, inAsks, askSide, rfl⟩ := sim.exists_live_of_front sim.book.sell isAsk
    exact sound.uncrossed bidOrder inBids bidSide askOrder inAsks askSide
  · exact (perm.map _).nodup_iff.mpr sim.book.ids_nodup
  · exact (perm.map _).nodup_iff.mpr sim.book.addrs
  · exact sim.book.locations.trans (perm.map _).symm
  · intro node member
    rw [sim.seen]
    apply sound.seen
    rw [← sim.live]
    exact List.mem_map_of_mem (perm.mem_iff.mp member)

/-! ### The consistency check of the source -/

theorem SimulatesOn.levelChecked (sim : SimulatesOn engine reference nodes)
    (sound : reference.Sound) (stamped : reference.Stamped) {lt : Int64 → Int64 → Prop}
    {levels : LevelMap lt} [IsStrictTotalOrder Int64 lt] {side : Side}
    (groups : Groups levels side nodes) :
    ∀ entry ∈ levels.entries,
      OrderBook.LevelChecked engine.book.locations side entry.1 entry.2 := by
  intro entry member
  have found := levels.find?_eq_some_iff.mpr member
  have orders := groups.orders_eq found
  have ascending : nodes.Pairwise (fun a b => a.order.sequence ≤ b.order.sequence) := by
    have stamps := stamped.increasing
    rw [← sim.live, List.pairwise_map] at stamps
    exact stamps.imp UInt64.le_of_lt
  refine ⟨groups.orders_ne_nil found, fun node inLevel => ?_, ?_, ?_⟩
  · rw [orders] at inLevel
    obtain ⟨inNodes, onLevel⟩ := List.mem_filter.mp inLevel
    obtain ⟨onSide, onPrice⟩ := OrderNode.onLevel_iff.mp onLevel
    have restable := sound.restable node.order (sim.live ▸ List.mem_map_of_mem inNodes)
    refine ⟨restable.id, restable.quantity, onPrice, onSide, restable.type, ?_⟩
    rw [sim.book.find?_location_iff]
    exact ⟨node, inNodes, by rw [OrderNode.locate, onSide, onPrice]⟩
  · rw [orders]
    exact ascending.sublist List.filter_sublist
  · rw [groups.level_eq found]
    rfl

/-- The best prices belong to live orders, so their difference does not wrap. -/
theorem SimulatesOn.spread_exact (sim : SimulatesOn engine reference nodes)
    (sound : reference.Sound) {spread : Int64} (isSpread : engine.book.spread = some spread) :
    0 < spread ∧ ∃ bid ask, engine.book.bestBid = some bid ∧ engine.book.bestAsk = some ask ∧
      spread.toInt = ask.toInt - bid.toInt := by
  rw [OrderBook.spread] at isSpread
  split at isSpread
  · rename_i bid ask isBid isAsk
    obtain rfl := Option.some.inj isSpread
    obtain ⟨bidOrder, inBids, bidSide, rfl⟩ := sim.exists_live_of_front sim.book.buy isBid
    obtain ⟨askOrder, inAsks, askSide, rfl⟩ := sim.exists_live_of_front sim.book.sell isAsk
    have positive := (sound.restable bidOrder inBids).price
    have positive' := (sound.restable askOrder inAsks).price
    have uncrossed := sound.uncrossed bidOrder inBids bidSide askOrder inAsks askSide
    exact ⟨(Int64.sub_pos_iff positive positive').mpr uncrossed, _, _, isBid, isAsk,
      Int64.toInt_sub_of_pos positive positive'⟩
  · contradiction

/-- The check accepts every state that agrees with a stamped live list. -/
theorem Refines.checkInvariants (refines : Refines engine reference) :
    engine.book.checkInvariants = true := by
  obtain ⟨⟨nodes, sim⟩, sound, stamped⟩ := refines
  have perm := sim.book.nodes_perm
  have ids : (engine.book.nodes.map (fun node => node.order.id)).Nodup :=
    (perm.map _).nodup_iff.mpr sim.book.ids_nodup
  rw [OrderBook.checkInvariants_iff]
  refine ⟨fun _ isSpread => (sim.spread_exact sound isSpread).1,
    sim.levelChecked sound stamped sim.book.buy, sim.levelChecked sound stamped sim.book.sell,
    ids, ?_⟩
  have few := nodup_ids_length_lt ids (by
    intro id member
    obtain ⟨node, inBook, rfl⟩ := List.mem_map.mp member
    exact (sound.restable node.order
      (sim.live ▸ List.mem_map_of_mem (perm.mem_iff.mp inBook))).id)
  rw [List.length_map] at few
  rw [UInt64.toNat_ofNat', Nat.mod_eq_of_lt few, OrderedMap.size, sim.book.locations.length_eq,
    List.length_map, perm.length_eq]

end Sound

/-! ### Runs -/

theorem Refines.run (limits : RiskLimits) (commands : List Command) (outTrades : List Trade)
    (short : commands.length < 2 ^ 32) :
    ∃ responses, (MatchingEngine.fresh limits).trace commands outTrades = .ok responses ∧
      ∃ reference, Refines ((MatchingEngine.fresh limits).lastEngine responses) reference ∧
        reference.sequence.toNat = commands.length := by
  refine MatchingEngine.trace_induction
    (P := fun before responses =>
      ∃ reference, Refines ((MatchingEngine.fresh limits).lastEngine responses) reference ∧
        reference.sequence.toNat = before.length)
    ⟨_, refines_fresh limits, rfl⟩ commands ?_
  rintro before responses command shorter ⟨reference, refines, sequence⟩
  obtain ⟨response, applied, _, _, refines', sequence'⟩ :=
    refines.apply (by omega) command (MatchingEngine.lastTrades outTrades responses)
  refine ⟨response, applied, _, by rwa [MatchingEngine.lastEngine_concat], ?_⟩
  rw [sequence', sequence, List.length_append, List.length_singleton]

/-- Every state that fewer than `2^32` commands reach is well formed, no assertion fails
on the way, and the source's own check accepts the state. -/
theorem wellFormed_of_trace (limits : RiskLimits) (commands : List Command)
    (outTrades : List Trade) (short : commands.length < 2 ^ 32) :
    ∃ responses, (MatchingEngine.fresh limits).trace commands outTrades = .ok responses ∧
      ((MatchingEngine.fresh limits).lastEngine responses).WellFormed ∧
      ((MatchingEngine.fresh limits).lastEngine responses).book.checkInvariants = true := by
  obtain ⟨responses, run, reference, refines, sequence⟩ :=
    Refines.run limits commands outTrades short
  have few : reference.live.length < 2 ^ 32 := by
    have length := refines.stamped.length
    omega
  exact ⟨responses, run, refines.wellFormed few, refines.checkInvariants⟩

/-- Two price levels on one side and a rejected order. -/
theorem wellFormed_of_trace_two_levels :
    let commands : List Command :=
      [.newOrder { id := 7, side := .buy, price := 100, quantity := 10 },
        .newOrder { id := 8, side := .buy, price := 99, quantity := 5 }, .newOrder { id := 0 }]
    ∃ responses, (MatchingEngine.fresh {}).trace commands [] = .ok responses ∧
      ((MatchingEngine.fresh {}).lastEngine responses).WellFormed ∧
      ((MatchingEngine.fresh {}).lastEngine responses).book.checkInvariants = true :=
  wellFormed_of_trace {} _ [] (by decide)

end Lob
