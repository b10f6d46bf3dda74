import Lob.OrderBook.BestOrder
import Mathlib.Data.List.Sort

/-!
# Books of corresponding orders

A level map that groups a list of nodes is determined by the orders of the list, up to
the addresses of the nodes: its `contents` are the prices, the orders of each level and
the cached totals, in iteration order. When the orders of one book are the images of the
orders of another one, and prices keep their order under a change of keys, the contents
of the levels are the images too. The preflight loop only reads prices and totals, so it
gives the same answer on both. The totals may have wrapped; no bound is needed.
-/

namespace Lob

/-- The price, the orders and the cached total of every level, best level first. -/
def LevelMap.contents {lt : Int64 → Int64 → Prop} (levels : LevelMap lt) :
    List (Int64 × List Order × UInt64) :=
  levels.entries.map (fun e => (e.1, e.2.orders.map OrderNode.order, e.2.totalQuantity))

theorem LevelMap.contents_sorted {lt : Int64 → Int64 → Prop} (levels : LevelMap lt) :
    levels.contents.Pairwise (fun a b => lt a.1 b.1) := by
  rw [LevelMap.contents, List.pairwise_map]
  exact levels.sorted

/-- The order belongs to the level of this side and price. -/
def Order.isOn (side : Side) (price : Int64) (order : Order) : Bool :=
  decide (order.side = side) && decide (order.price = price)

theorem Order.isOn_iff {side : Side} {price : Int64} {order : Order} :
    order.isOn side price = true ↔ order.side = side ∧ order.price = price := by
  simp [Order.isOn]

/-- The cached total of a level with these orders. -/
def cachedTotal (orders : List Order) : UInt64 :=
  UInt64.ofNat (orders.map (fun order => order.quantity.toNat)).sum

section Contents

variable {lt lt' : Int64 → Int64 → Prop} [IsStrictTotalOrder Int64 lt]
  [IsStrictTotalOrder Int64 lt'] {levels : LevelMap lt} {levels' : LevelMap lt'}
  {side side' : Side} {nodes nodes' : List OrderNode}

theorem Groups.mem_contents (groups : Groups levels side nodes) {price : Int64}
    {orders : List Order} {total : UInt64} :
    (price, orders, total) ∈ levels.contents ↔
      orders ≠ [] ∧ orders = (nodes.map OrderNode.order).filter (Order.isOn side price) ∧
        total = cachedTotal orders := by
  have members : (nodes.map OrderNode.order).filter (Order.isOn side price) =
      (nodes.filter (OrderNode.onLevel side price)).map OrderNode.order := List.filter_map
  have entry : (price, orders, total) ∈ levels.contents ↔
      ∃ level, levels.find? price = some level ∧
        orders = level.orders.map OrderNode.order ∧ total = level.totalQuantity := by
    simp only [LevelMap.contents, List.mem_map, Prod.mk.injEq, OrderedMap.find?_eq_some_iff,
      Prod.exists]
    constructor
    · rintro ⟨_, level, member, rfl, rfl, rfl⟩
      exact ⟨level, member, rfl, rfl⟩
    · rintro ⟨level, member, rfl, rfl⟩
      exact ⟨price, level, member, rfl, rfl, rfl⟩
  rw [entry, members]
  constructor
  · rintro ⟨level, found, rfl, rfl⟩
    obtain ⟨nonempty, rfl⟩ := groupLevel_eq_some_iff.mp ((groups price).symm.trans found)
    refine ⟨by simpa [PriceLevel.ofNodes] using nonempty, rfl, ?_⟩
    simp only [PriceLevel.ofNodes, cachedTotal, quantitySum, List.map_map]
    rfl
  · rintro ⟨nonempty, rfl, rfl⟩
    refine ⟨_, (groups price).trans (groupLevel_eq_some_iff.mpr ⟨by simpa using nonempty, rfl⟩),
      rfl, ?_⟩
    simp only [PriceLevel.ofNodes, cachedTotal, quantitySum, List.map_map]
    rfl

/-- A level has an order, and its price is the price of the level. -/
theorem Groups.exists_of_mem_contents (groups : Groups levels side nodes) {price : Int64}
    {orders : List Order} {total : UInt64} (member : (price, orders, total) ∈ levels.contents) :
    ∃ order ∈ nodes.map OrderNode.order, order.side = side ∧ order.price = price := by
  obtain ⟨nonempty, same, _⟩ := groups.mem_contents.mp member
  obtain ⟨order, inLevel⟩ := List.exists_mem_of_ne_nil orders nonempty
  rw [same] at inLevel
  exact ⟨order, (List.mem_filter.mp inLevel).1, Order.isOn_iff.mp (List.mem_filter.mp inLevel).2⟩

/-- How the orders of one book correspond to those of another: sides go to sides, prices
to keys, and keys keep the iteration order. -/
structure Corresponds (lt lt' : Int64 → Int64 → Prop) (side side' : Side) (image : Order → Order)
    (key : Int64 → Int64) (live : List Order) : Prop where
  quantity : ∀ order, (image order).quantity = order.quantity
  sides : ∀ order ∈ live, (image order).side = side' ↔ order.side = side
  prices : ∀ order ∈ live, order.side = side → (image order).price = key order.price
  increasing : ∀ a ∈ live, ∀ b ∈ live, a.side = side → b.side = side →
    lt a.price b.price → lt' (key a.price) (key b.price)

variable {image : Order → Order} {key : Int64 → Int64} {live : List Order}

theorem Corresponds.key_injective (corresponds : Corresponds lt lt' side side' image key live)
    {a b : Order} (inA : a ∈ live) (inB : b ∈ live) (sideA : a.side = side) (sideB : b.side = side)
    (same : key a.price = key b.price) : a.price = b.price := by
  rcases trichotomous_of lt a.price b.price with less | equal | greater
  · have image := corresponds.increasing a inA b inB sideA sideB less
    exact absurd (same ▸ image) (irrefl_of lt' _)
  · exact equal
  · have image := corresponds.increasing b inB a inA sideB sideA greater
    exact absurd (same ▸ image) (irrefl_of lt' _)

theorem Corresponds.filter_isOn (corresponds : Corresponds lt lt' side side' image key live)
    {order : Order} (member : order ∈ live) (onSide : order.side = side) :
    (live.map image).filter (Order.isOn side' (key order.price)) =
      (live.filter (Order.isOn side order.price)).map image := by
  rw [List.filter_map]
  congr 1
  apply List.filter_congr
  intro other inLive
  rw [Bool.eq_iff_iff, Function.comp_apply, Order.isOn_iff, Order.isOn_iff,
    corresponds.sides other inLive]
  apply and_congr_right
  intro otherSide
  rw [corresponds.prices other inLive otherSide]
  exact ⟨corresponds.key_injective inLive member otherSide onSide, congrArg key⟩

theorem cachedTotal_map (quantity : ∀ order, (image order).quantity = order.quantity)
    (orders : List Order) : cachedTotal (orders.map image) = cachedTotal orders := by
  simp [cachedTotal, List.map_map, Function.comp_def, quantity]

/-- The contents of a level map over corresponding orders. -/
theorem Groups.contents_image (groups : Groups levels side nodes)
    (groups' : Groups levels' side' nodes')
    (images : nodes'.map OrderNode.order = (nodes.map OrderNode.order).map image)
    (corresponds : Corresponds lt lt' side side' image key (nodes.map OrderNode.order)) :
    levels'.contents =
      levels.contents.map (fun e => (key e.1, e.2.1.map image, e.2.2)) := by
  have irreflexive : Std.Irrefl (fun a b : Int64 × List Order × UInt64 => lt' a.1 b.1) :=
    ⟨fun a => irrefl_of lt' a.1⟩
  have antisymmetric : Std.Antisymm (fun a b : Int64 × List Order × UInt64 => lt' a.1 b.1) :=
    ⟨fun a b first second => absurd (trans_of lt' first second) (irrefl_of lt' a.1)⟩
  apply List.Pairwise.eq_of_mem_iff levels'.contents_sorted
  · rw [List.pairwise_map]
    refine levels.contents_sorted.imp_of_mem ?_
    rintro ⟨price, orders, total⟩ ⟨price', orders', total'⟩ inA inB less
    obtain ⟨a, memberA, sideA, rfl⟩ := groups.exists_of_mem_contents inA
    obtain ⟨b, memberB, sideB, rfl⟩ := groups.exists_of_mem_contents inB
    exact corresponds.increasing a memberA b memberB sideA sideB less
  · rintro ⟨price', orders', total'⟩
    rw [groups'.mem_contents, images]
    simp only [List.mem_map, Prod.mk.injEq, Prod.exists]
    constructor
    · rintro ⟨nonempty, same, total⟩
      obtain ⟨order', member⟩ := List.exists_mem_of_ne_nil orders' nonempty
      rw [same] at member
      obtain ⟨inImages, onLevel⟩ := List.mem_filter.mp member
      obtain ⟨order, inLive, rfl⟩ := List.mem_map.mp inImages
      obtain ⟨onSide', price⟩ := Order.isOn_iff.mp onLevel
      have onSide := (corresponds.sides order inLive).mp onSide'
      rw [corresponds.prices order inLive onSide] at price
      subst price
      rw [corresponds.filter_isOn inLive onSide] at same
      refine ⟨order.price, _, total', groups.mem_contents.mpr ⟨?_, rfl, ?_⟩, rfl, same.symm, rfl⟩
      · rintro empty
        rw [empty] at same
        exact nonempty same
      · rw [total, same, cachedTotal_map corresponds.quantity]
    · rintro ⟨price, orders, total, member, rfl, rfl, rfl⟩
      obtain ⟨nonempty, same, sum⟩ := groups.mem_contents.mp member
      obtain ⟨order, inLive, onSide, rfl⟩ := groups.exists_of_mem_contents member
      refine ⟨by simpa using nonempty, ?_, ?_⟩
      · rw [corresponds.filter_isOn inLive onSide, ← same]
      · rw [sum, cachedTotal_map corresponds.quantity]

end Contents

/-! ### The preflight loop -/

/-- The loop over the levels reads prices and totals only. -/
theorem LevelMap.executableLoop_image {unacceptable unacceptable' : Int64 → Bool}
    {key : Int64 → Int64} {entries entries' : List (Int64 × PriceLevel)} (cap total : UInt64)
    (same : entries'.map (fun e => (e.1, e.2.totalQuantity)) =
      entries.map (fun e => (key e.1, e.2.totalQuantity)))
    (tests : ∀ e ∈ entries, unacceptable' (key e.1) = unacceptable e.1) :
    executableLoop unacceptable' cap total entries' =
      executableLoop unacceptable cap total entries := by
  induction entries generalizing entries' total with
  | nil =>
      rw [List.map_nil, List.map_eq_nil_iff] at same
      rw [same]
      rfl
  | cons entry entries ih =>
      obtain ⟨price, level⟩ := entry
      obtain ⟨⟨price', level'⟩, rest, rfl, first, later⟩ := List.map_eq_cons_iff.mp same
      obtain ⟨rfl, sameTotal⟩ := Prod.mk.inj first
      have test := tests (price, level) List.mem_cons_self
      simp only [executableLoop]
      rw [test, sameTotal]
      split
      · rfl
      · split
        · rfl
        · exact ih _ later (fun e member => tests e (List.mem_cons_of_mem _ member))

theorem LevelMap.executableLoop_contents {lt lt' : Int64 → Int64 → Prop} {levels : LevelMap lt}
    {levels' : LevelMap lt'} {unacceptable unacceptable' : Int64 → Bool} (key : Int64 → Int64)
    {image : Order → Order} (cap total : UInt64)
    (same : levels'.contents = levels.contents.map (fun e => (key e.1, e.2.1.map image, e.2.2)))
    (tests : ∀ e ∈ levels.entries, unacceptable' (key e.1) = unacceptable e.1) :
    executableLoop unacceptable' cap total levels'.entries =
      executableLoop unacceptable cap total levels.entries := by
  apply executableLoop_image cap total _ tests
  have totals := congrArg (List.map (fun e => (e.1, e.2.2))) same
  simpa only [LevelMap.contents, List.map_map, Function.comp_def] using totals

end Lob
