import Lob.OrderBook.Groups

/-!
# The book as a view of one list of nodes

`Represents book nodes` adds the id index to the grouping of both sides: the index
entries are, up to their order, the locations of the nodes. That one permutation says
that every resting order has exactly one entry, that the entry points at that very
node, and that `orderCount` counts the nodes.

Adding an order appends a node, a cancel filters one out, and a fill of the best order
changes or drops one node.
-/

namespace Lob

/-- The level maps and the index are views of the nodes, listed in arrival order. -/
structure Represents (book : OrderBook) (nodes : List OrderNode) : Prop where
  buy : Groups book.buyLevels .buy nodes
  sell : Groups book.sellLevels .sell nodes
  locations : book.locations.entries.Perm (nodes.map OrderNode.locate)
  addrs : (nodes.map OrderNode.addr).Nodup
  allocated : ∀ node ∈ nodes, node.addr < book.nextAddr
  sides : ∀ node ∈ nodes, node.order.side = .buy ∨ node.order.side = .sell

theorem represents_empty : Represents {} [] where
  buy _ := rfl
  sell _ := rfl
  locations := .nil
  addrs := .nil
  allocated _ member := absurd member List.not_mem_nil
  sides _ member := absurd member List.not_mem_nil

/-- An order that goes in goes behind the others of its level. -/
theorem OrderBook.addOrder_eq_true_iff {book book' : OrderBook} {order : Order} :
    book.addOrder order = .ok (book', true) ↔
      ¬(order.id = 0 ∨ order.quantity = 0 ∨ order.price ≤ 0 ∨ order.type ≠ .limit ∨
        book.contains order.id = true) ∧
      ∃ locations, OrderBook.emplaceLocation book.locations order.id
          ⟨order.side, order.price, book.nextAddr⟩ = .ok locations ∧
        ((order.side = .buy ∧ book' =
            { book with
              buyLevels := LevelMap.pushBack book.buyLevels order.price ⟨book.nextAddr, order⟩
              locations
              nextAddr := book.nextAddr + 1 }) ∨
          (order.side = .sell ∧ book' =
            { book with
              sellLevels := LevelMap.pushBack book.sellLevels order.price ⟨book.nextAddr, order⟩
              locations
              nextAddr := book.nextAddr + 1 })) := by
  rw [OrderBook.addOrder]
  split
  · rename_i invalid
    simp [invalid]
  rename_i valid
  rw [and_iff_right valid]
  split
  · rename_i buy
    rw [buy]
    cases emplaced : OrderBook.emplaceLocation book.locations order.id
      ⟨.buy, order.price, book.nextAddr⟩ with
    | error fault => simp [emplaced, bind, Except.bind]
    | ok locations =>
        simp [emplaced, bind, Except.bind, pure, Except.pure, Side.buy_ne_sell, @eq_comm _ book']
  · rename_i notBuy
    split
    · rename_i sell
      rw [sell]
      cases emplaced : OrderBook.emplaceLocation book.locations order.id
        ⟨.sell, order.price, book.nextAddr⟩ with
      | error fault => simp [emplaced, bind, Except.bind]
      | ok locations =>
          simp [emplaced, bind, Except.bind, pure, Except.pure, Side.buy_ne_sell.symm,
            @eq_comm _ book']
    · rename_i notSell
      simp [notBuy, notSell]

/-- The level of a side and price. -/
def OrderBook.levelAt (book : OrderBook) (side : Side) (price : Int64) : Option PriceLevel :=
  if side = .buy then book.buyLevels.find? price else book.sellLevels.find? price

namespace Represents

variable {book : OrderBook} {nodes : List OrderNode}
variable {node : OrderNode} {qty : UInt32} {side : Side} {orderId : UInt64}

theorem levelAt_eq (rep : Represents book nodes) (known : side = .buy ∨ side = .sell)
    (price : Int64) :
    book.levelAt side price = groupLevel nodes side price := by
  rcases known with rfl | rfl
  · exact rep.buy price
  · exact rep.sell price

theorem ids_nodup (rep : Represents book nodes) :
    (nodes.map (fun node => node.order.id)).Nodup := by
  have keys := (rep.locations.map Prod.fst).nodup_iff.mp book.locations.keys_nodup
  simpa only [List.map_map, Function.comp_def, OrderNode.locate] using keys

theorem nodup (rep : Represents book nodes) : nodes.Nodup := rep.addrs.of_map _

theorem eq_of_id (rep : Represents book nodes) {node node' : OrderNode} (member : node ∈ nodes)
    (member' : node' ∈ nodes) (same : node.order.id = node'.order.id) : node = node' :=
  List.inj_on_of_nodup_map rep.ids_nodup member member' same

theorem eq_of_addr (rep : Represents book nodes) {node node' : OrderNode} (member : node ∈ nodes)
    (member' : node' ∈ nodes) (same : node.addr = node'.addr) : node = node' :=
  List.inj_on_of_nodup_map rep.addrs member member' same

theorem orderCount_eq (rep : Represents book nodes) : book.orderCount = nodes.length := by
  rw [OrderBook.orderCount, OrderedMap.size, rep.locations.length_eq, List.length_map]

theorem find?_location_iff (rep : Represents book nodes) {loc : OrderLocation} :
    book.locations.find? orderId = some loc ↔ ∃ node ∈ nodes, node.locate = (orderId, loc) := by
  rw [OrderedMap.find?_eq_some_iff, rep.locations.mem_iff, List.mem_map]

theorem contains_iff (rep : Represents book nodes) :
    book.contains orderId = true ↔ ∃ node ∈ nodes, node.order.id = orderId := by
  rw [OrderBook.contains, OrderedMap.contains_iff]
  simp only [rep.locations.mem_iff, List.mem_map]
  constructor
  · rintro ⟨loc, node, member, located⟩
    exact ⟨node, member, congrArg Prod.fst located⟩
  · rintro ⟨node, member, rfl⟩
    exact ⟨_, node, member, rfl⟩

theorem mem_nodes_iff (rep : Represents book nodes) :
    node ∈ book.nodes ↔ node ∈ nodes := by
  rw [OrderBook.nodes, List.mem_append, rep.buy.mem_nodes_iff, rep.sell.mem_nodes_iff]
  constructor
  · rintro (⟨member, _⟩ | ⟨member, _⟩) <;> exact member
  · intro member
    exact (rep.sides node member).imp (fun side => ⟨member, side⟩) (fun side => ⟨member, side⟩)

theorem deref (rep : Represents book nodes) (member : node ∈ nodes) :
    book.deref node.addr = .ok node.order := by
  rw [OrderBook.deref]
  cases search : book.nodes.find? (fun other => decide (other.addr = node.addr)) with
  | none =>
      have absent := List.find?_eq_none.mp search node (rep.mem_nodes_iff.mpr member)
      simp at absent
  | some other =>
      have sameAddr : other.addr = node.addr := by simpa using List.find?_some search
      have inNodes := rep.mem_nodes_iff.mp (List.mem_of_find?_eq_some search)
      simp only [rep.eq_of_addr inNodes member sameAddr]

/-- The node list splits into one member and the nodes with another id. -/
theorem perm_cons_filter (rep : Represents book nodes) (member : node ∈ nodes) :
    nodes.Perm
      (node :: nodes.filter (fun other => decide (other.order.id ≠ node.order.id))) := by
  rw [List.perm_ext_iff_of_nodup rep.nodup
    (List.nodup_cons.mpr ⟨by simp, rep.nodup.filter _⟩)]
  intro other
  rw [List.mem_cons, List.mem_filter]
  constructor
  · intro old
    by_cases same : other.order.id = node.order.id
    · exact Or.inl (rep.eq_of_id old member same)
    · exact Or.inr ⟨old, by simpa using same⟩
  · rintro (rfl | ⟨old, _⟩)
    · exact member
    · exact old

/-- Erasing an id from the index follows the removal of its node. -/
theorem locations_erase (rep : Represents book nodes) (member : node ∈ nodes) :
    (book.locations.erase node.order.id).entries.Perm
      ((nodes.filter (fun other => decide (other.order.id ≠ node.order.id))).map
        OrderNode.locate) := by
  have entry : node.locate ∈ book.locations.entries :=
    rep.locations.mem_iff.mpr (List.mem_map_of_mem member)
  have removed := book.locations.perm_cons_erase entry
  have split := (rep.perm_cons_filter member).map OrderNode.locate
  exact (removed.symm.trans (rep.locations.trans split)).cons_inv

/-- Dropping nodes leaves addresses and sides in order. -/
theorem sublist_facts (rep : Represents book nodes) {fewer : List OrderNode}
    (sub : fewer.Sublist nodes) :
    (fewer.map OrderNode.addr).Nodup ∧ (∀ node ∈ fewer, node.addr < book.nextAddr) ∧
      ∀ node ∈ fewer, node.order.side = .buy ∨ node.order.side = .sell :=
  ⟨rep.addrs.sublist (sub.map _), fun node member => rep.allocated node (sub.subset member),
    fun node member => rep.sides node (sub.subset member)⟩

/-! ### Adding an order -/

/-- Emplacing an unused id follows the append of its node. -/
theorem locations_upsert (rep : Represents book nodes) (node : OrderNode)
    (new : ∀ other ∈ nodes, other.order.id ≠ node.order.id) :
    (book.locations.upsert node.order.id (fun _ => node.locate.2)).entries.Perm
      ((nodes ++ [node]).map OrderNode.locate) := by
  have free : book.locations.find? node.order.id = none := by
    rw [Option.eq_none_iff_forall_ne_some]
    intro loc found
    obtain ⟨other, member, located⟩ := rep.find?_location_iff.mp found
    exact new other member (congrArg Prod.fst located)
  have inserted := book.locations.perm_upsert_of_absent (fun _ => node.locate.2) free
  rw [List.map_append]
  exact inserted.trans ((rep.locations.cons _).trans (List.perm_append_singleton _ _).symm)

/-- The allocator's next address is new, so appending its node keeps the addresses apart. -/
theorem append_facts (rep : Represents book nodes) (node : OrderNode)
    (hside : node.order.side = .buy ∨ node.order.side = .sell)
    (haddr : node.addr = book.nextAddr) :
    ((nodes ++ [node]).map OrderNode.addr).Nodup ∧
      (∀ other ∈ nodes ++ [node], other.addr < book.nextAddr + 1) ∧
      ∀ other ∈ nodes ++ [node], other.order.side = .buy ∨ other.order.side = .sell := by
  refine ⟨?_, ?_, ?_⟩
  · rw [List.map_append, List.nodup_append]
    refine ⟨rep.addrs, List.nodup_singleton _, ?_⟩
    rintro _ old _ fresh rfl
    obtain ⟨other, member, same⟩ := List.mem_map.mp old
    have bound := rep.allocated other member
    rw [List.map_cons, List.map_nil, List.mem_singleton] at fresh
    omega
  · intro other member
    rcases List.mem_append.mp member with old | fresh
    · exact Nat.lt_succ_of_lt (rep.allocated other old)
    · rw [List.mem_singleton.mp fresh, haddr]
      exact Nat.lt_succ_self _
  · intro other member
    rcases List.mem_append.mp member with old | fresh
    · exact rep.sides other old
    · rw [List.mem_singleton.mp fresh]
      exact hside

theorem addOrder (rep : Represents book nodes) {order : Order} (hid : order.id ≠ 0)
    (hquantity : order.quantity ≠ 0) (hprice : 0 < order.price) (htype : order.type = .limit)
    (hside : order.side = .buy ∨ order.side = .sell)
    (new : ∀ node ∈ nodes, node.order.id ≠ order.id) :
    ∃ book', book.addOrder order = .ok (book', true) ∧
      Represents book' (nodes ++ [⟨book.nextAddr, order⟩]) := by
  have absent : book.contains order.id = false := by
    rw [← Bool.not_eq_true, rep.contains_iff]
    rintro ⟨node, member, same⟩
    exact new node member same
  have valid : ¬(order.id = 0 ∨ order.quantity = 0 ∨ order.price ≤ 0 ∨ order.type ≠ .limit ∨
      book.contains order.id = true) := by
    simp [hid, hquantity, htype, absent, hprice]
  have indexed : ∀ loc, OrderBook.emplaceLocation book.locations order.id loc =
      .ok (book.locations.upsert order.id (fun _ => loc)) := by
    intro loc
    rw [OrderBook.emplaceLocation, if_neg]
    simpa [OrderBook.contains] using absent
  have locations := rep.locations_upsert ⟨book.nextAddr, order⟩ new
  obtain ⟨addrs, allocated, sides⟩ := rep.append_facts ⟨book.nextAddr, order⟩ hside rfl
  rcases hside with hside | hside
  · refine ⟨_, OrderBook.addOrder_eq_true_iff.mpr ⟨valid, _, indexed _, Or.inl ⟨hside, rfl⟩⟩,
      ?_, ?_, locations, addrs, allocated, sides⟩
    · exact rep.buy.pushBack ⟨book.nextAddr, order⟩ hside
    · exact rep.sell.append_other _ (by rw [hside]; exact Side.buy_ne_sell)
  · have notBuy : order.side ≠ .buy := by
      rw [hside]
      exact Side.buy_ne_sell.symm
    refine ⟨_, OrderBook.addOrder_eq_true_iff.mpr ⟨valid, _, indexed _, Or.inr ⟨hside, rfl⟩⟩,
      ?_, ?_, locations, addrs, allocated, sides⟩
    · exact rep.buy.append_other _ notBuy
    · exact rep.sell.pushBack ⟨book.nextAddr, order⟩ hside

/-! ### Removing an order -/

/-- Removing by address and removing by id are the same on the represented nodes. -/
theorem filter_addr_eq (rep : Represents book nodes) (member : node ∈ nodes) :
    nodes.filter (fun other => decide (other.addr ≠ node.addr)) =
      nodes.filter (fun other => decide (other.order.id ≠ node.order.id)) := by
  apply List.filter_congr
  intro other otherMember
  have same : other.addr = node.addr ↔ other.order.id = node.order.id :=
    ⟨fun h => by rw [rep.eq_of_addr otherMember member h],
      fun h => by rw [rep.eq_of_id otherMember member h]⟩
  simp [same]

/-- Dropping a node of the other side changes no level of this side. -/
theorem groups_filter_other (rep : Represents book nodes) {lt : Int64 → Int64 → Prop}
    {levels : LevelMap lt} (groups : Groups levels side nodes) (member : node ∈ nodes)
    (other : node.order.side ≠ side) :
    Groups levels side (nodes.filter (fun other => decide (other.order.id ≠ node.order.id))) := by
  rw [← List.filterMap_eq_filter]
  refine groups.filterMap_other ?_ ?_
  · intro kept kept' same
    obtain ⟨rfl, _⟩ := Option.guard_eq_some_iff.mp same
    exact ⟨rfl, rfl⟩
  · intro kept keptMember onSide
    rw [Option.guard_eq_some_iff]
    refine ⟨rfl, ?_⟩
    have different : kept.order.id ≠ node.order.id := fun same =>
      other (by rw [← rep.eq_of_id keptMember member same]; exact onSide)
    simpa using different

theorem cancelOrder (rep : Represents book nodes) (member : node ∈ nodes) :
    ∃ book', book.cancelOrder node.order.id = .ok (book', some node.order) ∧
      Represents book' (nodes.filter (fun other => decide (other.order.id ≠ node.order.id))) := by
  have located : book.locations.find? node.order.id =
      some ⟨node.order.side, node.order.price, node.addr⟩ :=
    rep.find?_location_iff.mpr ⟨node, member, rfl⟩
  have locations := rep.locations_erase member
  obtain ⟨addrs, allocated, sides⟩ := rep.sublist_facts
    (List.filter_sublist (p := fun other => decide (other.order.id ≠ node.order.id)))
  rcases rep.sides node member with side | side
  · obtain ⟨levels', canceled, groups⟩ := rep.buy.cancelNode rep.addrs member side
    rw [rep.filter_addr_eq member] at groups
    have other := rep.groups_filter_other rep.sell member (by rw [side]; exact Side.buy_ne_sell)
    refine ⟨{ book with
        buyLevels := levels', locations := book.locations.erase node.order.id }, ?_,
      groups, other, locations, addrs, allocated, sides⟩
    simp only [OrderNode.locate] at canceled
    simp only [OrderBook.cancelOrder, located, rep.deref member, side] at canceled ⊢
    simp only [bind, Except.bind, if_true, canceled, pure, Except.pure]
  · obtain ⟨levels', canceled, groups⟩ := rep.sell.cancelNode rep.addrs member side
    rw [rep.filter_addr_eq member] at groups
    have other := rep.groups_filter_other rep.buy member
      (by rw [side]; exact Side.buy_ne_sell.symm)
    refine ⟨{ book with
        sellLevels := levels', locations := book.locations.erase node.order.id }, ?_,
      other, groups, locations, addrs, allocated, sides⟩
    simp only [OrderNode.locate] at canceled
    simp only [OrderBook.cancelOrder, located, rep.deref member, side] at canceled ⊢
    simp only [bind, Except.bind, if_neg Side.buy_ne_sell.symm, canceled, pure, Except.pure]

theorem cancelOrder_absent (rep : Represents book nodes)
    (absent : ∀ node ∈ nodes, node.order.id ≠ orderId) :
    book.cancelOrder orderId = .ok (book, none) := by
  have missing : book.locations.find? orderId = none := by
    rw [Option.eq_none_iff_forall_ne_some]
    intro loc found
    obtain ⟨node, member, located⟩ := rep.find?_location_iff.mp found
    exact absent node member (congrArg Prod.fst located)
  simp only [OrderBook.cancelOrder, missing]

/-! ### Filling the best order -/

theorem filterMap_reduceNode_exhausted (rep : Represents book nodes) (member : node ∈ nodes) :
    nodes.filterMap (reduceNode node.order.id node.order.quantity) =
      nodes.filter (fun other => decide (other.order.id ≠ node.order.id)) := by
  rw [← List.filterMap_eq_filter]
  apply List.filterMap_congr
  intro other otherMember
  by_cases same : other.order.id = node.order.id
  · rw [rep.eq_of_id otherMember member same, reduceNode_of_exhausted]
    simp [Option.guard]
  · rw [reduceNode_of_ne same]
    simp [Option.guard, same]

/-- A partial fill keeps every node, with its id, level and address. -/
theorem map_locate_reduceNode_remaining (rep : Represents book nodes) (member : node ∈ nodes)
    (left : node.order.quantity ≠ qty) :
    (nodes.filterMap (reduceNode node.order.id qty)).map OrderNode.locate =
      nodes.map OrderNode.locate := by
  rw [List.map_filterMap, ← List.filterMap_eq_map]
  apply List.filterMap_congr
  intro other otherMember
  by_cases same : other.order.id = node.order.id
  · rw [rep.eq_of_id otherMember member same, reduceNode_of_remaining left]
    rfl
  · rw [reduceNode_of_ne same]
    rfl

/-- Addresses, allocation and sides survive a change that keeps the index entries. -/
theorem facts_of_map_locate (rep : Represents book nodes) {nodes' : List OrderNode}
    (same : nodes'.map OrderNode.locate = nodes.map OrderNode.locate) :
    (nodes'.map OrderNode.addr).Nodup ∧ (∀ node ∈ nodes', node.addr < book.nextAddr) ∧
      ∀ node ∈ nodes', node.order.side = .buy ∨ node.order.side = .sell := by
  have addrs := congrArg (List.map (fun e => e.2.orderIt)) same
  simp only [List.map_map, Function.comp_def, OrderNode.locate] at addrs
  have origin : ∀ node' ∈ nodes', ∃ node ∈ nodes, node.locate = node'.locate := by
    intro node' member
    exact List.mem_map.mp (same ▸ List.mem_map_of_mem member)
  refine ⟨?_, ?_, ?_⟩
  · rw [show nodes'.map OrderNode.addr = nodes.map OrderNode.addr from addrs]
    exact rep.addrs
  · intro node' member'
    obtain ⟨node, member, located⟩ := origin node' member'
    rw [← show node.addr = node'.addr from congrArg (fun e => e.2.orderIt) located]
    exact rep.allocated node member
  · intro node' member'
    obtain ⟨node, member, located⟩ := origin node' member'
    rw [← show node.order.side = node'.order.side from congrArg (fun e => e.2.side) located]
    exact rep.sides node member

/-- A fill touches only levels of the filled order's side. -/
theorem groups_reduceNode_other (rep : Represents book nodes) {lt : Int64 → Int64 → Prop}
    {levels : LevelMap lt} (groups : Groups levels side nodes) (member : node ∈ nodes)
    (other : node.order.side ≠ side) (qty : UInt32) :
    Groups levels side (nodes.filterMap (reduceNode node.order.id qty)) := by
  refine groups.filterMap_other (keepsLevel_reduceNode _ _) ?_
  intro kept keptMember onSide
  apply reduceNode_of_ne
  intro same
  exact other (by rw [← rep.eq_of_id keptMember member same]; exact onSide)

/-- The index after a fill: an entry goes exactly when its order is exhausted. -/
theorem represents_reduced (rep : Represents book nodes) (member : node ∈ nodes)
    {buyLevels : BuyMap} {sellLevels : SellMap}
    (buy : Groups buyLevels .buy (nodes.filterMap (reduceNode node.order.id qty)))
    (sell : Groups sellLevels .sell (nodes.filterMap (reduceNode node.order.id qty))) :
    Represents
      { book with
        buyLevels, sellLevels
        locations := OrderBook.eraseExhausted book.locations
          (if node.order.quantity = qty then some node.order.id else none) }
      (nodes.filterMap (reduceNode node.order.id qty)) := by
  by_cases exhausted : node.order.quantity = qty
  · subst exhausted
    rw [if_pos rfl]
    rw [rep.filterMap_reduceNode_exhausted member] at buy sell ⊢
    obtain ⟨addrs, allocated, sides⟩ := rep.sublist_facts
      (List.filter_sublist (p := fun other => decide (other.order.id ≠ node.order.id)))
    exact ⟨buy, sell, rep.locations_erase member, addrs, allocated, sides⟩
  · rw [if_neg exhausted]
    have same := rep.map_locate_reduceNode_remaining member exhausted
    obtain ⟨addrs, allocated, sides⟩ := rep.facts_of_map_locate same
    exact ⟨buy, sell, by rw [same]; exact rep.locations, addrs, allocated, sides⟩

theorem reduceFront_buy (rep : Represents book nodes) {price : Int64} {level : PriceLevel}
    {rest : List OrderNode} (front : book.buyLevels.front? = some (price, level))
    (shape : level.orders = node :: rest) (enough : qty ≤ node.order.quantity)
    (member : node ∈ nodes) (side : node.order.side = .buy) :
    ∃ book', book.reduceFront .buy qty = .ok book' ∧
      Represents book' (nodes.filterMap (reduceNode node.order.id qty)) := by
  obtain ⟨levels', reduced, groups⟩ := rep.buy.reduceFront rep.ids_nodup front shape enough
  have other := rep.groups_reduceNode_other rep.sell member
    (by rw [side]; exact Side.buy_ne_sell) qty
  refine ⟨_, ?_, rep.represents_reduced member groups other⟩
  simp only [OrderBook.reduceFront, if_true, reduced, bind, Except.bind, pure, Except.pure]

theorem reduceFront_sell (rep : Represents book nodes) {price : Int64} {level : PriceLevel}
    {rest : List OrderNode} (front : book.sellLevels.front? = some (price, level))
    (shape : level.orders = node :: rest) (enough : qty ≤ node.order.quantity)
    (member : node ∈ nodes) (side : node.order.side = .sell) :
    ∃ book', book.reduceFront .sell qty = .ok book' ∧
      Represents book' (nodes.filterMap (reduceNode node.order.id qty)) := by
  obtain ⟨levels', reduced, groups⟩ := rep.sell.reduceFront rep.ids_nodup front shape enough
  have other := rep.groups_reduceNode_other rep.buy member
    (by rw [side]; exact Side.buy_ne_sell.symm) qty
  refine ⟨_, ?_, rep.represents_reduced member other groups⟩
  simp only [OrderBook.reduceFront, if_neg Side.buy_ne_sell.symm, reduced, bind, Except.bind,
    pure, Except.pure]

end Represents

end Lob
