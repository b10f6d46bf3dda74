import Lob.OrderBook.ExecutableQuantity
import Lob.OrderBook.Representation

/-!
# The best order and the preflight quantity

The engine looks at the front of the best level and at cached level totals; the
reference looks through the whole list of live orders. This module shows that they
see the same thing. The front of the best level is the live order that the reference
picks, because the comparator of a side ranks prices as the incoming order does and a
level lists its nodes in arrival order. The preflight loop computes the capped sum of
the acceptable level totals; while the quantities of the book sum to less than `2^64`
this is the exact quantity that the list offers.
-/

namespace Lob

/-! ### Ranking prices -/

/-- The rank of a price for an incoming order: smaller is better. -/
def Order.rankPrice (incoming : Order) (price : Int64) : Int :=
  if incoming.side = .buy then price.toInt else -price.toInt

theorem Order.rank_eq (incoming live : Order) :
    incoming.rank live = incoming.rankPrice live.price := rfl

/-- The comparator orders prices as the incoming order ranks them. -/
def RanksBy (lt : Int64 → Int64 → Prop) (incoming : Order) : Prop :=
  ∀ p q, lt p q ↔ incoming.rankPrice p < incoming.rankPrice q

theorem ranksBy_less {incoming : Order} (buy : incoming.side = .buy) : RanksBy less incoming := by
  intro p q
  simp only [less, Order.rankPrice, if_pos buy, Int64.lt_iff_toInt_lt]

theorem ranksBy_greater {incoming : Order} (notBuy : incoming.side ≠ .buy) :
    RanksBy greater incoming := by
  intro p q
  simp only [greater, Order.rankPrice, if_neg notBuy, Int64.lt_iff_toInt_lt]
  omega

/-- A better price is acceptable whenever a worse one is. -/
theorem Order.crosses_of_rank_le {incoming first second : Order}
    (better : incoming.rank first ≤ incoming.rank second)
    (crosses : incoming.crosses second = true) : incoming.crosses first = true := by
  simp only [Order.crosses, Bool.or_eq_true, decide_eq_true_eq] at crosses ⊢
  refine crosses.imp_right ?_
  intro acceptable
  by_cases buy : incoming.side = .buy
  · simp only [Order.rank, if_pos buy] at better
    simp only [if_pos buy, decide_eq_true_eq, ge_iff_le, Int64.le_iff_toInt_le] at acceptable ⊢
    omega
  · simp only [Order.rank, if_neg buy] at better
    simp only [if_neg buy, decide_eq_true_eq, Int64.le_iff_toInt_le] at acceptable ⊢
    omega

theorem Order.accepts_iff {incoming live : Order} :
    incoming.accepts live = true ↔
      live.side = incoming.opposite ∧ incoming.crosses live = true := by
  simp [Order.accepts]

/-- The minimum is attained first by the first element that attains it. -/
private theorem firstLeast_of_filter_eq_cons {α β : Type*} [DecidableEq α] [LinearOrder β]
    {f : α → β} {items rest : List α} {best : α} (least : ∀ item ∈ items, f best ≤ f item)
    (first : items.filter (fun item => decide (f item ≤ f best)) = best :: rest) :
    firstLeast f items = some best := by
  obtain ⟨before, after, shape, worse, _, _⟩ := List.filter_eq_cons_iff.mp first
  have notBefore : ∀ item, f item ≤ f best → item ∉ before := by
    intro item good member
    exact worse item member (by simpa using good)
  rw [List.argmin_eq_some_iff]
  refine ⟨by rw [shape]; simp, least, ?_⟩
  intro item _ good
  rw [shape, List.idxOf_append_of_notMem (notBefore best le_rfl),
    List.idxOf_append_of_notMem (notBefore item good), List.idxOf_cons_self]
  omega

namespace Groups

variable {lt : Int64 → Int64 → Prop} {levels : LevelMap lt} {side : Side}
  {nodes : List OrderNode} [IsStrictTotalOrder Int64 lt]
variable {incoming : Order}

/-- An empty side offers nothing to the incoming order. -/
theorem accepts_nil_of_empty (groups : Groups levels side nodes)
    (opposite : incoming.opposite = side) (empty : levels.entries = []) :
    (nodes.map OrderNode.order).filter incoming.accepts = [] := by
  rw [List.filter_eq_nil_iff]
  intro order member accepted
  obtain ⟨node, inNodes, rfl⟩ := List.mem_map.mp member
  have onSide := (Order.accepts_iff.mp accepted).1.trans opposite
  obtain ⟨level, found, _⟩ := groups.exists_level inNodes onSide
  have entry := levels.find?_eq_some_iff.mp found
  rw [empty] at entry
  exact absurd entry List.not_mem_nil

/-- The best level has a front node, and no node of the side ranks better. -/
theorem front_least (groups : Groups levels side nodes) (ranks : RanksBy lt incoming)
    {price : Int64} {level : PriceLevel} (front : levels.front? = some (price, level))
    {node : OrderNode} (member : node ∈ nodes) (onSide : node.order.side = side) :
    incoming.rankPrice price ≤ incoming.rank node.order ∧
      (incoming.rank node.order ≤ incoming.rankPrice price → node.order.price = price) := by
  obtain ⟨level', found, _⟩ := groups.exists_level member onSide
  rcases OrderedMap.lt_of_front? front (levels.find?_eq_some_iff.mp found) with same | later
  · have samePrice : node.order.price = price := congrArg Prod.fst same
    rw [Order.rank_eq, samePrice]
    exact ⟨Int.le_refl _, fun _ => rfl⟩
  · have worse := (ranks _ _).mp later
    rw [Order.rank_eq]
    exact ⟨Int.le_of_lt worse, fun better => absurd worse (Int.not_lt.mpr better)⟩

/-- The front of the best level is the reference's pick when its price is acceptable,
and otherwise nothing on the side is acceptable. -/
theorem pickBest_front (groups : Groups levels side nodes) (ranks : RanksBy lt incoming)
    (opposite : incoming.opposite = side) {price : Int64} {level : PriceLevel} {node : OrderNode}
    {rest : List OrderNode} (front : levels.front? = some (price, level))
    (shape : level.orders = node :: rest) :
    (incoming.crosses node.order = true →
        Reference.pickBest (nodes.map OrderNode.order) incoming = some node.order) ∧
      (incoming.crosses node.order = false →
        (nodes.map OrderNode.order).filter incoming.accepts = []) := by
  have found := levels.find?_eq_some_iff.mpr (OrderedMap.mem_of_front? front)
  have members : node :: rest = nodes.filter (OrderNode.onLevel side price) := by
    rw [← shape, groups.orders_eq found]
  obtain ⟨inNodes, onLevel⟩ := List.mem_filter.mp (members ▸ List.mem_cons_self)
  obtain ⟨onSide, onPrice⟩ := OrderNode.onLevel_iff.mp onLevel
  have rankFront : incoming.rank node.order = incoming.rankPrice price := by
    rw [Order.rank_eq, onPrice]
  have leastOf : ∀ other ∈ nodes, other.order.side = side →
      incoming.rank node.order ≤ incoming.rank other.order := by
    intro other member otherSide
    rw [rankFront]
    exact (groups.front_least ranks front member otherSide).1
  constructor
  · intro crosses
    have least : ∀ order ∈ (nodes.map OrderNode.order).filter incoming.accepts,
        incoming.rank node.order ≤ incoming.rank order := by
      intro order member
      obtain ⟨inLive, accepted⟩ := List.mem_filter.mp member
      obtain ⟨other, otherMember, rfl⟩ := List.mem_map.mp inLive
      exact leastOf other otherMember ((Order.accepts_iff.mp accepted).1.trans opposite)
    -- among the acceptable orders, those ranked no worse than the front are its level
    have first : ((nodes.map OrderNode.order).filter incoming.accepts).filter
        (fun order => decide (incoming.rank order ≤ incoming.rank node.order)) =
          node.order :: rest.map OrderNode.order := by
      rw [List.filter_filter, List.filter_map, ← List.map_cons, members]
      congr 1
      apply List.filter_congr
      intro other otherMember
      rw [Bool.eq_iff_iff, Function.comp_apply, Bool.and_eq_true, decide_eq_true_eq,
        Order.accepts_iff, OrderNode.onLevel_iff]
      constructor
      · rintro ⟨notWorse, otherSide, _⟩
        have onSide' := otherSide.trans opposite
        refine ⟨onSide', ?_⟩
        rw [rankFront] at notWorse
        exact (groups.front_least ranks front otherMember onSide').2 notWorse
      · rintro ⟨otherSide, otherPrice⟩
        have sameRank : incoming.rank other.order = incoming.rank node.order := by
          rw [rankFront, Order.rank_eq, otherPrice]
        exact ⟨Int.le_of_eq sameRank, otherSide.trans opposite.symm,
          Order.crosses_of_rank_le (Int.le_of_eq sameRank) crosses⟩
    exact firstLeast_of_filter_eq_cons least first
  · intro notCrosses
    rw [List.filter_eq_nil_iff]
    intro order member accepted
    obtain ⟨other, otherMember, rfl⟩ := List.mem_map.mp member
    obtain ⟨otherSide, crosses⟩ := Order.accepts_iff.mp accepted
    have better := Order.crosses_of_rank_le
      (leastOf other otherMember (otherSide.trans opposite)) crosses
    rw [notCrosses] at better
    exact absurd better Bool.false_ne_true

end Groups

/-! ### The preflight quantity -/

theorem quantitySum_flatMap {α : Type*} (items : List α) (members : α → List OrderNode) :
    quantitySum (items.flatMap members) =
      (items.map (fun item => quantitySum (members item))).sum := by
  induction items with
  | nil => rfl
  | cons item items ih => simp [ih]

theorem quantitySum_le_of_sublist {fewer nodes : List OrderNode} (sub : fewer.Sublist nodes) :
    quantitySum fewer ≤ quantitySum nodes := by
  induction sub with
  | slnil => exact Nat.le_refl _
  | cons node _ ih => simpa using Nat.le_add_left_of_le ih
  | cons_cons node _ ih => simpa using ih

theorem Reference.acceptableQuantity_map (nodes : List OrderNode) (incoming : Order) :
    Reference.acceptableQuantity (nodes.map OrderNode.order) incoming =
      quantitySum (nodes.filter (fun node => incoming.accepts node.order)) := by
  simp only [Reference.acceptableQuantity, quantitySum, List.filter_map, List.map_map,
    Function.comp_def]

namespace Groups

variable {lt : Int64 → Int64 → Prop} {levels : LevelMap lt} {side : Side}
  {nodes : List OrderNode}

/-- The cached total of a level is exact while the whole book fits in 64 bits. -/
theorem totalQuantity_toNat (groups : Groups levels side nodes)
    (fits : quantitySum nodes < 2 ^ 64) {price : Int64} {level : PriceLevel}
    (found : levels.find? price = some level) :
    level.totalQuantity.toNat = quantitySum level.orders := by
  have bound : quantitySum (nodes.filter (OrderNode.onLevel side price)) ≤ quantitySum nodes :=
    quantitySum_le_of_sublist List.filter_sublist
  rw [groups.level_eq found, PriceLevel.ofNodes, UInt64.toNat_ofNat', Nat.mod_eq_of_lt (by omega)]

variable [IsStrictTotalOrder Int64 lt]

/-- The members of the acceptable levels are the acceptable nodes. -/
theorem flatMap_perm (groups : Groups levels side nodes) (nodup : nodes.Nodup)
    (acceptable : Int64 → Bool) :
    ((levels.entries.filter (fun e => acceptable e.1)).flatMap (fun e => e.2.orders)).Perm
      (nodes.filter (fun node =>
        decide (node.order.side = side) && acceptable node.order.price)) := by
  have entryOrders : ∀ e ∈ levels.entries,
      e.2.orders = nodes.filter (OrderNode.onLevel side e.1) := fun e member =>
    groups.orders_eq (levels.find?_eq_some_iff.mpr member)
  have apart : ((levels.entries.filter (fun e => acceptable e.1)).flatMap
      (fun e => e.2.orders)).Nodup := by
    rw [List.nodup_flatMap]
    constructor
    · intro e member
      rw [entryOrders e (List.mem_filter.mp member).1]
      exact nodup.filter _
    · refine (levels.sorted.filter _).imp_of_mem ?_
      intro a b memberA memberB less node inA inB
      simp only at inA inB
      rw [entryOrders a (List.mem_filter.mp memberA).1] at inA
      rw [entryOrders b (List.mem_filter.mp memberB).1] at inB
      have priceA := (OrderNode.onLevel_iff.mp (List.mem_filter.mp inA).2).2
      have priceB := (OrderNode.onLevel_iff.mp (List.mem_filter.mp inB).2).2
      rw [← priceA, ← priceB] at less
      exact irrefl_of lt _ less
  rw [List.perm_ext_iff_of_nodup apart (nodup.filter _)]
  intro node
  rw [List.mem_flatMap, List.mem_filter, Bool.and_eq_true, decide_eq_true_eq]
  constructor
  · rintro ⟨e, member, inLevel⟩
    obtain ⟨entry, good⟩ := List.mem_filter.mp member
    rw [entryOrders e entry] at inLevel
    obtain ⟨inNodes, onLevel⟩ := List.mem_filter.mp inLevel
    obtain ⟨onSide, onPrice⟩ := OrderNode.onLevel_iff.mp onLevel
    exact ⟨inNodes, onSide, by rw [onPrice]; exact good⟩
  · rintro ⟨inNodes, onSide, good⟩
    obtain ⟨level, found, inLevel⟩ := groups.exists_level inNodes onSide
    exact ⟨(_, level), List.mem_filter.mpr ⟨levels.find?_eq_some_iff.mp found, good⟩, inLevel⟩

/-- The cached totals of the acceptable levels add up to the acceptable nodes. -/
theorem sum_totalQuantity (groups : Groups levels side nodes) (nodup : nodes.Nodup)
    (fits : quantitySum nodes < 2 ^ 64) (acceptable : Int64 → Bool) :
    ((levels.entries.filter (fun e => acceptable e.1)).map
        (fun e => e.2.totalQuantity.toNat)).sum =
      quantitySum (nodes.filter (fun node =>
        decide (node.order.side = side) && acceptable node.order.price)) := by
  rw [← quantitySum_perm (groups.flatMap_perm nodup acceptable), quantitySum_flatMap]
  congr 1
  apply List.map_congr_left
  intro e member
  exact groups.totalQuantity_toNat fits
    (levels.find?_eq_some_iff.mpr (List.mem_filter.mp member).1)

end Groups

/-! ### The book's answers -/

theorem Order.opposite_of_buy {order : Order} (buy : order.side = .buy) :
    order.opposite = .sell := if_pos buy

theorem Order.opposite_of_not_buy {order : Order} (notBuy : order.side ≠ .buy) :
    order.opposite = .buy := if_neg notBuy

/-- What the engine sees on the opposite side: nothing at all, or a front order that is
the reference's pick if it is acceptable and that can be filled by up to its quantity. -/
structure BestView (book : OrderBook) (nodes : List OrderNode) (incoming : Order)
    (node : OrderNode) : Prop where
  member : node ∈ nodes
  nonempty : book.emptySide incoming.opposite = false
  front : book.frontOfBest incoming.opposite = some node.order
  picked : incoming.crosses node.order = true →
    Reference.pickBest (nodes.map OrderNode.order) incoming = some node.order
  refused : incoming.crosses node.order = false →
    (nodes.map OrderNode.order).filter incoming.accepts = []
  reduced : ∀ qty ≤ node.order.quantity, ∃ book',
    book.reduceFront incoming.opposite qty = .ok book' ∧
      Represents book' (nodes.filterMap (reduceNode node.order.id qty))

namespace Represents

variable {book : OrderBook} {nodes : List OrderNode}

theorem nodes_perm (rep : Represents book nodes) : book.nodes.Perm nodes := by
  have side : ∀ {lt : Int64 → Int64 → Prop} [IsStrictTotalOrder Int64 lt] {levels : LevelMap lt}
      {side : Side}, Groups levels side nodes → (LevelMap.nodes levels).Perm
        (nodes.filter (fun node => decide (node.order.side = side))) := by
    intro lt _ levels side groups
    simpa [LevelMap.nodes] using groups.flatMap_perm rep.nodup (fun _ => true)
  have sells : nodes.filter (fun node => decide (node.order.side = .sell)) =
      nodes.filter (fun node => !decide (node.order.side = .buy)) := by
    apply List.filter_congr
    intro node member
    rcases rep.sides node member with buy | sell
    · simp [buy, Side.buy_ne_sell]
    · simp [sell, Side.buy_ne_sell.symm]
  refine ((side rep.buy).append (side rep.sell)).trans ?_
  rw [sells]
  exact List.filter_append_perm _ _

/-- A side of the represented book is empty or starts with a non-empty level. -/
private theorem front_cases {lt : Int64 → Int64 → Prop} [IsStrictTotalOrder Int64 lt]
    {levels : LevelMap lt} {side : Side} (groups : Groups levels side nodes) :
    levels.entries = [] ∨ ∃ price level node rest, levels.front? = some (price, level) ∧
      level.orders = node :: rest ∧ node ∈ nodes ∧ node.order.side = side := by
  cases front : levels.front? with
  | none => exact Or.inl (List.head?_eq_none_iff.mp front)
  | some entry =>
      obtain ⟨price, level⟩ := entry
      obtain ⟨node, rest, shape, member, onSide, _⟩ := groups.exists_front_node front
      exact Or.inr ⟨price, level, node, rest, rfl, shape, member, onSide⟩

theorem best_cases (rep : Represents book nodes) (incoming : Order) :
    (book.emptySide incoming.opposite = true ∧
        book.frontOfBest incoming.opposite = none ∧
        (nodes.map OrderNode.order).filter incoming.accepts = []) ∨
      ∃ node, BestView book nodes incoming node := by
  by_cases buy : incoming.side = .buy
  · have opposite := Order.opposite_of_buy buy
    have notBuy : ¬Side.sell = .buy := Side.buy_ne_sell.symm
    rcases front_cases rep.sell with empty | ⟨price, level, node, rest, front, shape, member, side⟩
    · refine Or.inl ⟨?_, ?_, rep.sell.accepts_nil_of_empty opposite empty⟩
      · simp [opposite, OrderBook.emptySide, notBuy, empty]
      · simp [opposite, OrderBook.frontOfBest, notBuy, LevelMap.frontOfBest, OrderedMap.front?,
          empty]
    · obtain ⟨picked, refused⟩ :=
        rep.sell.pickBest_front (ranksBy_less buy) opposite front shape
      refine Or.inr ⟨node, member, ?_, ?_, picked, refused, ?_⟩
      · rw [opposite, OrderBook.emptySide, if_neg notBuy, ← Bool.not_eq_true,
          OrderedMap.isEmpty_iff]
        exact fun empty => by simp [OrderedMap.front?, empty] at front
      · simp [opposite, OrderBook.frontOfBest, notBuy, LevelMap.frontOfBest, front, shape]
      · intro qty enough
        rw [opposite]
        exact rep.reduceFront_sell front shape enough member side
  · have opposite := Order.opposite_of_not_buy buy
    rcases front_cases rep.buy with empty | ⟨price, level, node, rest, front, shape, member, side⟩
    · refine Or.inl ⟨?_, ?_, rep.buy.accepts_nil_of_empty opposite empty⟩
      · simp [opposite, OrderBook.emptySide, empty]
      · simp [opposite, OrderBook.frontOfBest, LevelMap.frontOfBest, OrderedMap.front?, empty]
    · obtain ⟨picked, refused⟩ :=
        rep.buy.pickBest_front (ranksBy_greater buy) opposite front shape
      refine Or.inr ⟨node, member, ?_, ?_, picked, refused, ?_⟩
      · rw [opposite, OrderBook.emptySide, if_pos rfl, ← Bool.not_eq_true,
          OrderedMap.isEmpty_iff]
        exact fun empty => by simp [OrderedMap.front?, empty] at front
      · simp [opposite, OrderBook.frontOfBest, LevelMap.frontOfBest, front, shape]
      · intro qty enough
        rw [opposite]
        exact rep.reduceFront_buy front shape enough member side

/-- A valid order crosses exactly when some live order is acceptable to it. -/
theorem wouldCross_eq (rep : Represents book nodes) {incoming : Order}
    (hside : isValidSide incoming.side = true) (htype : isValidOrderType incoming.type = true) :
    book.wouldCross incoming = (nodes.map OrderNode.order).any incoming.accepts := by
  have acceptable : ∀ best, (if incoming.type = .market then true
      else if incoming.side = .buy then decide (incoming.price ≥ best.price)
      else decide (incoming.price ≤ best.price)) = incoming.crosses best := by
    intro best
    by_cases market : incoming.type = .market
    · simp [Order.crosses, market]
    · simp [Order.crosses, market]
  have guarded : (!isValidSide incoming.side || !isValidOrderType incoming.type) = false := by
    simp [hside, htype]
  have answer :
      book.wouldCross incoming = (book.frontOfBest incoming.opposite).any incoming.crosses := by
    rw [OrderBook.wouldCross, guarded, if_neg Bool.false_ne_true]
    simp only [acceptable]
    rw [← Order.opposite]
    cases book.frontOfBest incoming.opposite <;> rfl
  have none_any : (nodes.map OrderNode.order).filter incoming.accepts = [] →
      (nodes.map OrderNode.order).any incoming.accepts = false := by
    intro empty
    rw [List.any_eq_false]
    exact fun order member accepted => List.filter_eq_nil_iff.mp empty order member accepted
  rw [answer]
  rcases rep.best_cases incoming with ⟨_, front, empty⟩ | ⟨node, view⟩
  · rw [front, none_any empty, Option.any_none]
  · rw [view.front, Option.any_some]
    cases crosses : incoming.crosses node.order with
    | true =>
        have picked := view.picked crosses
        have member := List.argmin_mem picked
        obtain ⟨inLive, accepted⟩ := List.mem_filter.mp member
        exact (List.any_eq_true.mpr ⟨_, inLive, accepted⟩).symm
    | false => rw [none_any (view.refused crosses)]

/-- The preflight quantity is the offered quantity, capped, while the book fits. -/
theorem executableQuantity_toNat (rep : Represents book nodes) {incoming : Order}
    (hside : isValidSide incoming.side = true) (htype : isValidOrderType incoming.type = true)
    (fits : quantitySum nodes < 2 ^ 64) (cap : UInt64) :
    (book.executableQuantity incoming cap).toNat =
      min cap.toNat (Reference.acceptableQuantity (nodes.map OrderNode.order) incoming) := by
  have accepts : ∀ node : OrderNode, incoming.accepts node.order =
      (decide (node.order.side = incoming.opposite) &&
        incoming.acceptsPrice node.order.price) := fun _ => rfl
  rw [Reference.acceptableQuantity_map, OrderBook.executableQuantity_eq_min hside htype,
    OrderBook.acceptableTotal, OrderBook.oppositeLevels]
  simp only [accepts]
  by_cases buy : incoming.side = .buy
  · rw [if_pos buy, Order.opposite_of_buy buy, rep.sell.sum_totalQuantity rep.nodup fits]
  · rw [if_neg buy, Order.opposite_of_not_buy buy, rep.buy.sum_totalQuantity rep.nodup fits]

end Represents

end Lob
