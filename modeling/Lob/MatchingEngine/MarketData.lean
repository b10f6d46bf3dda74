import Lob.Library.Distinct
import Lob.MatchingEngine.History
import Lob.MatchingEngine.WellFormed
import Lob.OrderBook.Image
import Mathlib.Order.Bounds.Defs

/-!
# Market data

What the observers of the book tell about the live orders. The depth of a side is defined
on the flat list of live orders: its distinct prices, best price first, each with the exact
quantity and the number of the orders there. The book answers from its level maps, the
cached totals and the index, and every state of a short run gives the same answers.
-/

namespace Lob

open SortedList

/-! ### The depth of the live orders -/

/-- One line of the depth of a side, in exact numbers. -/
structure DepthLevel where
  price : Int64
  quantity : Nat
  orders : Nat
  deriving DecidableEq, Repr

/-- The prices of the live orders of a side. -/
def sidePrices (live : List Order) (side : Side) : List Int64 :=
  (live.filter (fun order => decide (order.side = side))).map Order.price

theorem mem_sidePrices {live : List Order} {side : Side} {price : Int64} :
    price ∈ sidePrices live side ↔ ∃ order ∈ live, order.side = side ∧ order.price = price := by
  simp [sidePrices, and_assoc]

/-- The orders of a side that rest at a price, summed up. -/
def DepthLevel.ofLive (live : List Order) (side : Side) (price : Int64) : DepthLevel where
  price := price
  quantity :=
    ((live.filter (Order.isOn side price)).map (fun order => order.quantity.toNat)).sum
  orders := (live.filter (Order.isOn side price)).length

/-- The live orders of a side grouped by price, in the order of the comparator. -/
def marketDepth (lt : Int64 → Int64 → Prop) [DecidableRel lt] (live : List Order) (side : Side) :
    List DepthLevel :=
  (distinct lt (sidePrices live side)).map (DepthLevel.ofLive live side)

/-- A snapshot in exact numbers. -/
def LevelSnapshot.exact (snapshot : LevelSnapshot) : DepthLevel :=
  ⟨snapshot.price, snapshot.totalQuantity.toNat, snapshot.orderCount⟩

/-! ### The levels of a side -/

section Side

variable {lt : Int64 → Int64 → Prop} [DecidableRel lt] [IsStrictTotalOrder Int64 lt]
  {levels : LevelMap lt} {side : Side} {nodes : List OrderNode}

/-- The keys of a side are the distinct prices of its live orders. -/
theorem Groups.keys_eq (groups : Groups levels side nodes) :
    levels.entries.map Prod.fst = distinct lt (sidePrices (nodes.map OrderNode.order) side) := by
  apply eq_distinct
  · rw [List.pairwise_map]
    exact levels.sorted
  · intro price
    rw [mem_sidePrices]
    constructor
    · intro member
      obtain ⟨⟨_, level⟩, inEntries, rfl⟩ := List.mem_map.mp member
      exact groups.exists_of_mem_contents (List.mem_map_of_mem inEntries)
    · rintro ⟨order, inLive, onSide, rfl⟩
      have onLevel : order ∈ (nodes.map OrderNode.order).filter
          (Order.isOn side order.price) :=
        List.mem_filter.mpr ⟨inLive, Order.isOn_iff.mpr ⟨onSide, rfl⟩⟩
      have inContents := groups.mem_contents.mpr ⟨List.ne_nil_of_mem onLevel, rfl, rfl⟩
      obtain ⟨entry, inEntries, same⟩ := List.mem_map.mp inContents
      exact List.mem_map.mpr ⟨entry, inEntries, congrArg Prod.fst same⟩

/-- The levels of a side, read as snapshots, are the depth of its live orders. -/
theorem Groups.snapshots_eq (groups : Groups levels side nodes)
    (fits : quantitySum nodes < 2 ^ 64) :
    levels.entries.map (fun e => DepthLevel.mk e.1 e.2.totalQuantity.toNat e.2.orders.length) =
      marketDepth lt (nodes.map OrderNode.order) side := by
  rw [marketDepth, ← groups.keys_eq, List.map_map]
  apply List.map_congr_left
  rintro ⟨price, level⟩ member
  have found := levels.find?_eq_some_iff.mpr member
  have resting : (nodes.map OrderNode.order).filter (Order.isOn side price) =
      level.orders.map OrderNode.order := by
    rw [groups.orders_eq found]
    exact List.filter_map
  rw [Function.comp_apply, DepthLevel.ofLive, resting, groups.totalQuantity_toNat fits found,
    quantitySum, List.map_map, List.length_map]
  rfl

theorem Groups.topLevels_eq (groups : Groups levels side nodes)
    (fits : quantitySum nodes < 2 ^ 64) (maxLevels : Nat) :
    (levels.topLevels maxLevels).map LevelSnapshot.exact =
      (marketDepth lt (nodes.map OrderNode.order) side).take maxLevels := by
  rw [← groups.snapshots_eq fits, ← List.map_take, LevelMap.topLevels, List.map_map]
  rfl

theorem Groups.size_eq (groups : Groups levels side nodes) :
    levels.size = (sidePrices (nodes.map OrderNode.order) side).dedup.length := by
  rw [← length_distinct lt, ← groups.keys_eq, List.length_map, OrderedMap.size]

theorem Groups.front_eq (groups : Groups levels side nodes) :
    levels.front?.map Prod.fst =
      (distinct lt (sidePrices (nodes.map OrderNode.order) side)).head? := by
  rw [← groups.keys_eq, List.head?_map, OrderedMap.front?]

end Side

/-! ### The book -/

/-- What the observers of a book say about the live orders. -/
structure OrderBook.Shows (book : OrderBook) (live : List Order) : Prop where
  topBids : ∀ maxLevels, (book.topLevels .buy maxLevels).map LevelSnapshot.exact =
    (marketDepth greater live .buy).take (min maxLevels (sidePrices live .buy).dedup.length)
  topAsks : ∀ maxLevels, (book.topLevels .sell maxLevels).map LevelSnapshot.exact =
    (marketDepth less live .sell).take (min maxLevels (sidePrices live .sell).dedup.length)
  depth : ∀ side, isValidSide side = true →
    book.depth side = (sidePrices live side).dedup.length
  orderCount : book.orderCount = live.length
  contains : ∀ orderId, book.contains orderId = true ↔ ∃ order ∈ live, order.id = orderId
  bestBid : ∀ bid, book.bestBid = some bid ↔
    IsGreatest {price | ∃ order ∈ live, order.side = .buy ∧ order.price = price} bid
  noBid : book.bestBid = none ↔ ∀ order ∈ live, order.side ≠ .buy
  bestAsk : ∀ ask, book.bestAsk = some ask ↔
    IsLeast {price | ∃ order ∈ live, order.side = .sell ∧ order.price = price} ask
  noAsk : book.bestAsk = none ↔ ∀ order ∈ live, order.side ≠ .sell
  spread : ∀ spread, book.spread = some spread → 0 < spread ∧
    ∃ bid ask, book.bestBid = some bid ∧ book.bestAsk = some ask ∧
      spread.toInt = ask.toInt - bid.toInt

section Shows

variable {engine : MatchingEngine} {reference : Reference} {nodes : List OrderNode}

/-- The best price of a side is the first one of its live orders, and is absent if there
are none. -/
theorem SimulatesOn.front_iff (sim : SimulatesOn engine reference nodes)
    {lt : Int64 → Int64 → Prop} [DecidableRel lt] [IsStrictTotalOrder Int64 lt]
    {levels : LevelMap lt} {side : Side} (groups : Groups levels side nodes) :
    (∀ best, levels.front?.map Prod.fst = some best ↔
      (∃ order ∈ reference.live, order.side = side ∧ order.price = best) ∧
        ∀ price, (∃ order ∈ reference.live, order.side = side ∧ order.price = price) →
          ¬lt price best) ∧
    (levels.front?.map Prod.fst = none ↔ ∀ order ∈ reference.live, order.side ≠ side) := by
  have front := groups.front_eq
  rw [sim.live] at front
  rw [front]
  constructor
  · intro best
    simp only [head?_distinct_eq_some_iff, mem_sidePrices]
  · rw [head?_distinct_eq_none_iff, sidePrices, List.map_eq_nil_iff, List.filter_eq_nil_iff]
    simp only [decide_eq_true_eq, ne_eq]

theorem Simulates.shows (simulates : Simulates engine reference) (sound : reference.Sound)
    (few : reference.live.length < 2 ^ 32) : engine.book.Shows reference.live := by
  have holds := simulates.holds few
  obtain ⟨nodes, sim⟩ := simulates
  have fits := sim.quantitySum_lt few
  have bids := sim.front_iff sim.book.buy
  have asks := sim.front_iff sim.book.sell
  have shown {lt : Int64 → Int64 → Prop} [DecidableRel lt] [IsStrictTotalOrder Int64 lt]
      {levels : LevelMap lt} {side : Side} (groups : Groups levels side nodes) (maxLevels : Nat) :
      (levels.topLevels maxLevels).map LevelSnapshot.exact =
        (marketDepth lt reference.live side).take
          (min maxLevels (sidePrices reference.live side).dedup.length) := by
    rw [groups.topLevels_eq fits, sim.live, ← length_distinct lt, List.take_eq_take_iff,
      marketDepth, List.length_map, min_assoc, min_self]
  exact {
    topBids := shown sim.book.buy
    topAsks := shown sim.book.sell
    depth := by
      intro side valid
      rcases isValidSide_iff.mp valid with rfl | rfl
      · exact sim.live ▸ sim.book.buy.size_eq
      · exact sim.live ▸ sim.book.sell.size_eq
    orderCount := holds.count
    contains := holds.indexed
    bestBid := by
      intro bid
      rw [OrderBook.bestBid, bids.1]
      exact and_congr_right (fun _ => forall₂_congr (fun _ _ => Int64.not_lt))
    noBid := bids.2
    bestAsk := by
      intro ask
      rw [OrderBook.bestAsk, asks.1]
      exact and_congr_right (fun _ => forall₂_congr (fun _ _ => Int64.not_lt))
    noAsk := asks.2
    spread := fun spread => sim.spread_exact sound }

end Shows

/-- After every short run the observers of the book tell the truth about the live orders. -/
theorem market_data_exact (limits : RiskLimits) (commands : List Command)
    (short : commands.length < 2 ^ 32) :
    ∃ engine, (MatchingEngine.fresh limits).runAll commands = .ok engine ∧
      engine.book.Shows ((Reference.fresh limits).runAll commands).live := by
  obtain ⟨engine, reached, refines, count⟩ :=
    (refines_fresh limits).runAll_reference commands (by simpa [Reference.fresh] using short)
  have length := refines.stamped.length
  have start : (Reference.fresh limits).sequence.toNat = 0 := rfl
  exact ⟨engine, reached, refines.simulates.shows refines.sound (by omega)⟩

/-- Two bids at one price, one at a better price that trades in part, and one canceled. -/
theorem market_data_exact_two_bids :
    let commands : List Command :=
      [.newOrder { id := 1, side := .buy, price := 100, quantity := 10 },
        .newOrder { id := 2, side := .buy, price := 100, quantity := 5 },
        .newOrder { id := 3, side := .buy, price := 101, quantity := 7 },
        .newOrder { id := 4, side := .sell, price := 101, quantity := 3 },
        .newOrder { id := 5, side := .buy, price := 99, quantity := 1 }, .cancel 5]
    marketDepth greater ((Reference.fresh {}).runAll commands).live .buy =
        [⟨101, 4, 1⟩, ⟨100, 15, 2⟩] ∧
      ∃ engine, (MatchingEngine.fresh {}).runAll commands = .ok engine ∧
        engine.book.Shows ((Reference.fresh {}).runAll commands).live :=
  ⟨by decide, market_data_exact {} _ (by decide)⟩

end Lob
