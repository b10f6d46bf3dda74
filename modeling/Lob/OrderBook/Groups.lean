import Lob.Reference

/-!
# Price levels as a grouping of one list of nodes

`Groups levels side nodes` says that a level map is a redundant view of a list of nodes
kept in arrival order: the level at a price is the sublist of the nodes on that side
and price, and there is a level only where that sublist has a member. The cached total
of a level is the sum of its quantities reduced to 64 bits, so the relation needs no
bound on the length of a run.

The operations of the book change the node list by an append or by a partial map that
keeps every node on its level. Each branch of the source that works on one side is
shown to succeed, with no `Fault`, and to follow that change of the list.
-/

namespace Lob

variable {node : OrderNode} {price : Int64} {traded : UInt32}

/-! ### Sums of quantities -/

/-- The exact sum of the quantities of some nodes. -/
def quantitySum (nodes : List OrderNode) : Nat :=
  (nodes.map (fun node => node.order.quantity.toNat)).sum

@[simp] theorem quantitySum_nil : quantitySum [] = 0 := rfl

@[simp] theorem quantitySum_cons (node : OrderNode) (nodes : List OrderNode) :
    quantitySum (node :: nodes) = node.order.quantity.toNat + quantitySum nodes := by
  simp [quantitySum]

@[simp] theorem quantitySum_append (left right : List OrderNode) :
    quantitySum (left ++ right) = quantitySum left + quantitySum right := by
  simp [quantitySum]

theorem quantitySum_perm {left right : List OrderNode} (perm : left.Perm right) :
    quantitySum left = quantitySum right := (perm.map _).sum_nat

theorem ofNat_add_quantity (total : Nat) (quantity : UInt32) :
    UInt64.ofNat total + quantity.toUInt64 = UInt64.ofNat (total + quantity.toNat) := by
  rw [UInt64.ofNat_add, UInt64.ofNat_uInt32ToNat]

theorem ofNat_sub_quantity (total : Nat) (quantity : UInt32) :
    UInt64.ofNat (total + quantity.toNat) - quantity.toUInt64 = UInt64.ofNat total := by
  rw [← ofNat_add_quantity, UInt64.add_sub_cancel]

/-- The cached total after a fill of one of its orders. -/
theorem ofNat_sub_filled {quantity filled : UInt32} (enough : filled ≤ quantity) (others : Nat) :
    UInt64.ofNat (quantity.toNat + others) - filled.toUInt64 =
      UInt64.ofNat ((quantity - filled).toNat + others) := by
  have difference := UInt32.toNat_sub_of_le _ _ enough
  have le := UInt32.le_iff_toNat_le.mp enough
  have shift : quantity.toNat + others = ((quantity - filled).toNat + others) + filled.toNat := by
    omega
  rw [shift, ofNat_sub_quantity]

/-! ### Grouping nodes into levels -/

/-- The node belongs to the level of this side and price. -/
def OrderNode.onLevel (side : Side) (price : Int64) (node : OrderNode) : Bool :=
  decide (node.order.side = side) && decide (node.order.price = price)

theorem OrderNode.onLevel_iff {side : Side} :
    node.onLevel side price = true ↔ node.order.side = side ∧ node.order.price = price := by
  simp [OrderNode.onLevel]

/-- The index entry of a node. -/
def OrderNode.locate (node : OrderNode) : UInt64 × OrderLocation :=
  (node.order.id, ⟨node.order.side, node.order.price, node.addr⟩)

/-- The level that holds exactly the given nodes. -/
def PriceLevel.ofNodes (nodes : List OrderNode) : PriceLevel :=
  ⟨nodes, UInt64.ofNat (quantitySum nodes)⟩

/-- The level of a side and price in the grouping of some nodes, if it has a member. -/
def groupLevel (nodes : List OrderNode) (side : Side) (price : Int64) : Option PriceLevel :=
  if (nodes.filter (OrderNode.onLevel side price)).isEmpty then none
  else some (.ofNodes (nodes.filter (OrderNode.onLevel side price)))

/-- The level map holds, at every price, the level of the grouping. -/
def Groups {lt : Int64 → Int64 → Prop} (levels : LevelMap lt) (side : Side)
    (nodes : List OrderNode) : Prop :=
  ∀ price, levels.find? price = groupLevel nodes side price

theorem groupLevel_eq_none_iff {nodes : List OrderNode} {side : Side} :
    groupLevel nodes side price = none ↔ nodes.filter (OrderNode.onLevel side price) = [] := by
  simp [groupLevel]

theorem groupLevel_eq_some_iff {nodes : List OrderNode} {side : Side} {level : PriceLevel} :
    groupLevel nodes side price = some level ↔
      nodes.filter (OrderNode.onLevel side price) ≠ [] ∧
        level = .ofNodes (nodes.filter (OrderNode.onLevel side price)) := by
  by_cases empty : nodes.filter (OrderNode.onLevel side price) = []
  · simp [groupLevel, empty]
  · rw [groupLevel, if_neg (by simpa using empty), Option.some.injEq]
    exact ⟨fun same => ⟨empty, same.symm⟩, fun same => same.2.symm⟩

/-- A change of nodes that keeps them on their level. -/
def KeepsLevel (change : OrderNode → Option OrderNode) : Prop :=
  ∀ ⦃node node'⦄, change node = some node' →
    node'.order.side = node.order.side ∧ node'.order.price = node.order.price

theorem KeepsLevel.filter_filterMap {change : OrderNode → Option OrderNode}
    (keeps : KeepsLevel change) (nodes : List OrderNode) (side : Side) (price : Int64) :
    (nodes.filterMap change).filter (OrderNode.onLevel side price) =
      (nodes.filter (OrderNode.onLevel side price)).filterMap change := by
  induction nodes with
  | nil => rfl
  | cons node nodes ih =>
      cases result : change node with
      | none =>
          rw [List.filterMap_cons_none result, ih]
          by_cases member : node.onLevel side price = true
          · rw [List.filter_cons_of_pos member, List.filterMap_cons_none result]
          · rw [List.filter_cons_of_neg member]
      | some node' =>
          obtain ⟨sameSide, samePrice⟩ := keeps result
          have sameLevel : node'.onLevel side price = node.onLevel side price := by
            simp only [OrderNode.onLevel, sameSide, samePrice]
          rw [List.filterMap_cons_some result]
          by_cases member : node.onLevel side price = true
          · rw [List.filter_cons_of_pos (sameLevel.trans member), ih,
              List.filter_cons_of_pos member, List.filterMap_cons_some result]
          · rw [List.filter_cons_of_neg (by rw [sameLevel]; exact member), ih,
              List.filter_cons_of_neg member]

private theorem filterMap_eq_self {α : Type*} {change : α → Option α} {items : List α}
    (same : ∀ item ∈ items, change item = some item) : items.filterMap change = items := by
  rw [List.filterMap_congr same]
  exact List.filterMap_some

/-! ### The level maps -/

namespace LevelMap

variable {lt : Int64 → Int64 → Prop} [IsStrictTotalOrder Int64 lt]

theorem find?_eraseLevelIfEmpty (levels : LevelMap lt) (price price' : Int64) :
    (eraseLevelIfEmpty levels price).find? price' =
      if price' = price then (levels.find? price).filter (fun level => !level.orders.isEmpty)
      else levels.find? price' := by
  unfold eraseLevelIfEmpty
  cases found : levels.find? price with
  | none =>
      by_cases same : price' = price
      · simp [same, found]
      · simp [same]
  | some level =>
      by_cases same : price' = price
      · by_cases empty : level.orders = []
        · simp [same, empty, OrderedMap.find?_erase, Option.filter]
        · simp [same, empty, found, Option.filter]
      · by_cases empty : level.orders = []
        · simp [same, empty, OrderedMap.find?_erase]
        · simp [same, empty]

omit [IsStrictTotalOrder Int64 lt] in
theorem eraseLevelIfEmpty_of_ne_nil {levels : LevelMap lt} {price : Int64} {level : PriceLevel}
    (found : levels.find? price = some level) (nonempty : level.orders ≠ []) :
    eraseLevelIfEmpty levels price = levels := by
  simp [eraseLevelIfEmpty, found, nonempty]

end LevelMap

/-- Unlinking a member of a level gives the level of the other members. -/
theorem PriceLevel.ofNodes_eraseNode {members : List OrderNode}
    (addrs : (members.map OrderNode.addr).Nodup) (member : node ∈ members) :
    (PriceLevel.ofNodes members).eraseNode node.addr node.order.quantity =
      .ofNodes (members.filter (fun other => decide (other.addr ≠ node.addr))) := by
  have split : members.Perm
      (node :: members.filter (fun other => decide (other.addr ≠ node.addr))) := by
    have nodup : members.Nodup := addrs.of_map _
    rw [List.perm_ext_iff_of_nodup nodup (List.nodup_cons.mpr ⟨by simp, nodup.filter _⟩)]
    intro other
    rw [List.mem_cons, List.mem_filter]
    constructor
    · intro old
      by_cases same : other.addr = node.addr
      · exact Or.inl (List.inj_on_of_nodup_map addrs old member same)
      · exact Or.inr ⟨old, by simpa using same⟩
    · rintro (rfl | ⟨old, _⟩)
      · exact member
      · exact old
  have total := quantitySum_perm split
  rw [quantitySum_cons, Nat.add_comm] at total
  rw [PriceLevel.eraseNode, PriceLevel.ofNodes, PriceLevel.ofNodes, total, ofNat_sub_quantity]

/-- What a fill leaves of a node: its order is reduced and its address stays. -/
def reduceNode (orderId : UInt64) (traded : UInt32) (node : OrderNode) : Option OrderNode :=
  (Reference.reduce orderId traded node.order).map (fun order => ⟨node.addr, order⟩)

theorem reduceNode_of_ne {orderId : UInt64} (other : node.order.id ≠ orderId) :
    reduceNode orderId traded node = some node := by
  simp [reduceNode, Reference.reduce, other]

theorem reduceNode_of_exhausted :
    reduceNode node.order.id node.order.quantity node = none := by
  simp [reduceNode, Reference.reduce]

theorem reduceNode_of_remaining (left : node.order.quantity ≠ traded) :
    reduceNode node.order.id traded node =
      some ⟨node.addr, { node.order with quantity := node.order.quantity - traded }⟩ := by
  simp [reduceNode, Reference.reduce, left]

/-- A fill changes nothing of a node but its quantity. -/
theorem locate_of_reduceNode {orderId : UInt64} {node node' : OrderNode}
    (reduced : reduceNode orderId traded node = some node') : node'.locate = node.locate := by
  simp only [reduceNode, Reference.reduce] at reduced
  split at reduced
  · split at reduced
    · simp at reduced
    · simp only [Option.map_some, Option.some.injEq] at reduced
      rw [← reduced]
      rfl
  · simp only [Option.map_some, Option.some.injEq] at reduced
    rw [← reduced]

theorem keepsLevel_reduceNode (orderId : UInt64) (traded : UInt32) :
    KeepsLevel (reduceNode orderId traded) := by
  intro node node' reduced
  have located := congrArg Prod.snd (locate_of_reduceNode reduced)
  exact ⟨congrArg OrderLocation.side located, congrArg OrderLocation.price located⟩

namespace Groups

variable {lt : Int64 → Int64 → Prop} {levels : LevelMap lt} {side : Side}
  {nodes : List OrderNode}
variable {price : Int64} {level : PriceLevel} {node : OrderNode}

theorem level_eq (groups : Groups levels side nodes) (found : levels.find? price = some level) :
    level = .ofNodes (nodes.filter (OrderNode.onLevel side price)) :=
  (groupLevel_eq_some_iff.mp ((groups price).symm.trans found)).2

theorem orders_eq (groups : Groups levels side nodes) (found : levels.find? price = some level) :
    level.orders = nodes.filter (OrderNode.onLevel side price) := by
  rw [groups.level_eq found, PriceLevel.ofNodes]

theorem orders_ne_nil (groups : Groups levels side nodes)
    (found : levels.find? price = some level) : level.orders ≠ [] := by
  rw [groups.orders_eq found]
  exact (groupLevel_eq_some_iff.mp ((groups price).symm.trans found)).1

/-- The front of the first level is a node of that side and price. -/
theorem exists_front_node [IsStrictTotalOrder Int64 lt] (groups : Groups levels side nodes)
    (front : levels.front? = some (price, level)) :
    ∃ node rest, level.orders = node :: rest ∧ node ∈ nodes ∧ node.order.side = side ∧
      node.order.price = price := by
  have found := levels.find?_eq_some_iff.mpr (OrderedMap.mem_of_front? front)
  obtain ⟨node, rest, shape⟩ := List.exists_cons_of_ne_nil (groups.orders_ne_nil found)
  have inLevel : node ∈ nodes.filter (OrderNode.onLevel side price) := by
    rw [← groups.orders_eq found, shape]
    exact List.mem_cons_self
  obtain ⟨inNodes, onLevel⟩ := List.mem_filter.mp inLevel
  exact ⟨node, rest, shape, inNodes, OrderNode.onLevel_iff.mp onLevel⟩

/-- Every node of the side has its level in the map. -/
theorem exists_level (groups : Groups levels side nodes) (member : node ∈ nodes)
    (onSide : node.order.side = side) :
    ∃ level, levels.find? node.order.price = some level ∧ node ∈ level.orders := by
  have inside : node ∈ nodes.filter (OrderNode.onLevel side node.order.price) :=
    List.mem_filter.mpr ⟨member, OrderNode.onLevel_iff.mpr ⟨onSide, rfl⟩⟩
  cases found : levels.find? node.order.price with
  | none =>
      have absent := groupLevel_eq_none_iff.mp ((groups _).symm.trans found)
      rw [absent] at inside
      exact absurd inside List.not_mem_nil
  | some level => exact ⟨level, rfl, by rw [groups.orders_eq found]; exact inside⟩

/-- An unrelated append changes no level of this side. -/
theorem append_other (groups : Groups levels side nodes) (node : OrderNode)
    (other : node.order.side ≠ side) : Groups levels side (nodes ++ [node]) := by
  intro price
  have outside : OrderNode.onLevel side price node = false := by simp [OrderNode.onLevel, other]
  rw [groups price, groupLevel, groupLevel, List.filter_append,
    List.filter_cons_of_neg (by simp [outside]), List.filter_nil, List.append_nil]

/-- A change that leaves this side alone changes none of its levels. -/
theorem filterMap_other (groups : Groups levels side nodes)
    {change : OrderNode → Option OrderNode} (keeps : KeepsLevel change)
    (same : ∀ node ∈ nodes, node.order.side = side → change node = some node) :
    Groups levels side (nodes.filterMap change) := by
  intro price
  have unchanged : (nodes.filter (OrderNode.onLevel side price)).filterMap change =
      nodes.filter (OrderNode.onLevel side price) := by
    apply filterMap_eq_self
    intro node member
    obtain ⟨inNodes, level⟩ := List.mem_filter.mp member
    exact same node inNodes (OrderNode.onLevel_iff.mp level).1
  rw [groups price, groupLevel, groupLevel, keeps.filter_filterMap, unchanged]

variable [IsStrictTotalOrder Int64 lt]

theorem mem_nodes_iff (groups : Groups levels side nodes) :
    node ∈ LevelMap.nodes levels ↔ node ∈ nodes ∧ node.order.side = side := by
  simp only [LevelMap.nodes, List.mem_flatMap]
  constructor
  · rintro ⟨⟨price, level⟩, entry, member⟩
    rw [groups.orders_eq (levels.find?_eq_some_iff.mpr entry)] at member
    obtain ⟨inNodes, onLevel⟩ := List.mem_filter.mp member
    exact ⟨inNodes, (OrderNode.onLevel_iff.mp onLevel).1⟩
  · rintro ⟨member, onSide⟩
    obtain ⟨level, found, inLevel⟩ := groups.exists_level member onSide
    exact ⟨(_, level), levels.find?_eq_some_iff.mp found, inLevel⟩

/-- Replacing one level by its changed members follows the change of the nodes. -/
theorem filterMap_level (groups : Groups levels side nodes) {change : OrderNode → Option OrderNode}
    (keeps : KeepsLevel change) (found : levels.find? price = some level)
    (same : ∀ node ∈ nodes, node.order.side = side → node.order.price ≠ price →
      change node = some node) :
    Groups (LevelMap.eraseLevelIfEmpty
        (levels.update price (fun _ => .ofNodes (level.orders.filterMap change))) price)
      side (nodes.filterMap change) := by
  intro price'
  rw [LevelMap.find?_eraseLevelIfEmpty, OrderedMap.find?_update, OrderedMap.find?_update, found,
    if_pos rfl, groupLevel, keeps.filter_filterMap]
  by_cases here : price' = price
  · rw [if_pos here, here, groups.orders_eq found]
    cases empty : ((nodes.filter (OrderNode.onLevel side price)).filterMap change).isEmpty <;>
      simp_all [PriceLevel.ofNodes]
  · have unchanged : (nodes.filter (OrderNode.onLevel side price')).filterMap change =
        nodes.filter (OrderNode.onLevel side price') := by
      apply filterMap_eq_self
      intro node member
      obtain ⟨inNodes, onLevel⟩ := List.mem_filter.mp member
      obtain ⟨onSide, onPrice⟩ := OrderNode.onLevel_iff.mp onLevel
      exact same node inNodes onSide (by rw [onPrice]; exact here)
    rw [if_neg here, if_neg here, unchanged, groups price', groupLevel]

/-- Appending a node of this side is `push_back` on its level. -/
theorem pushBack [DecidableRel lt] (groups : Groups levels side nodes) (node : OrderNode)
    (onSide : node.order.side = side) :
    Groups (LevelMap.pushBack levels node.order.price node) side (nodes ++ [node]) := by
  intro price
  rw [LevelMap.pushBack, OrderedMap.find?_upsert, groupLevel, List.filter_append]
  by_cases here : price = node.order.price
  · have member : OrderNode.onLevel side price node = true :=
      OrderNode.onLevel_iff.mpr ⟨onSide, here.symm⟩
    rw [if_pos here, ← here, List.filter_cons_of_pos member, List.filter_nil, groups price,
      if_neg (by simp)]
    by_cases empty : nodes.filter (OrderNode.onLevel side price) = []
    · simp [groupLevel, empty, PriceLevel.ofNodes, PriceLevel.pushBack]
    · simp [groupLevel, empty, PriceLevel.ofNodes, PriceLevel.pushBack]
  · have outside : OrderNode.onLevel side price node = false := by
      simp [OrderNode.onLevel, Ne.symm here]
    rw [if_neg here, List.filter_cons_of_neg (by simp [outside]), List.filter_nil,
      List.append_nil, groups price, groupLevel]

/-- The cancel branch of one side removes the located node from its level. -/
theorem cancelNode (groups : Groups levels side nodes) (addrs : (nodes.map OrderNode.addr).Nodup)
    (member : node ∈ nodes) (onSide : node.order.side = side) :
    ∃ levels', LevelMap.cancelNode levels node.locate.2 node.order = .ok levels' ∧
      Groups levels' side (nodes.filter (fun other => decide (other.addr ≠ node.addr))) := by
  obtain ⟨level, found, inLevel⟩ := groups.exists_level member onSide
  have keeps : KeepsLevel (Option.guard (fun other => decide (other.addr ≠ node.addr))) := by
    intro other other' kept
    obtain ⟨rfl, _⟩ := Option.guard_eq_some_iff.mp kept
    exact ⟨rfl, rfl⟩
  have erased : level.eraseNode node.addr node.order.quantity =
      .ofNodes (level.orders.filterMap
        (Option.guard (fun other => decide (other.addr ≠ node.addr)))) := by
    rw [List.filterMap_eq_filter]
    have inside := inLevel
    rw [groups.orders_eq found] at inside
    rw [groups.level_eq found]
    exact PriceLevel.ofNodes_eraseNode (addrs.sublist (List.filter_sublist.map _)) inside
  refine ⟨_, by simp only [LevelMap.cancelNode, OrderNode.locate, found]; rfl, ?_⟩
  rw [← List.filterMap_eq_filter, erased]
  refine groups.filterMap_level keeps found ?_
  intro other otherMember _ elsewhere
  rw [Option.guard_eq_some_iff]
  refine ⟨rfl, ?_⟩
  -- a node at another price cannot share the address of the removed one
  have different : other.addr ≠ node.addr := fun same =>
    elsewhere (congrArg (fun n => n.order.price)
      (List.inj_on_of_nodup_map addrs otherMember member same))
  simpa using different

/-- The fill branch of one side reduces the front order of the best level, and erases
it with its level when nothing is left. -/
theorem reduceFront (groups : Groups levels side nodes)
    (ids : (nodes.map (fun node => node.order.id)).Nodup) {rest : List OrderNode}
    (front : levels.front? = some (price, level)) (shape : level.orders = node :: rest)
    {qty : UInt32} (enough : qty ≤ node.order.quantity) :
    ∃ levels', LevelMap.reduceFront levels qty =
        .ok (levels', if node.order.quantity = qty then some node.order.id else none) ∧
      Groups levels' side (nodes.filterMap (reduceNode node.order.id qty)) := by
  have found : levels.find? price = some level :=
    levels.find?_eq_some_iff.mpr (OrderedMap.mem_of_front? front)
  have members : node :: rest = nodes.filter (OrderNode.onLevel side price) := by
    rw [← shape, groups.orders_eq found]
  have inLevel : node ∈ nodes ∧ node.onLevel side price = true :=
    List.mem_filter.mp (members ▸ List.mem_cons_self)
  have total : level.totalQuantity =
      UInt64.ofNat (node.order.quantity.toNat + quantitySum rest) := by
    rw [groups.level_eq found, ← members, PriceLevel.ofNodes, quantitySum_cons]
  have others : ∀ other ∈ rest, reduceNode node.order.id qty other = some other := by
    intro other member
    apply reduceNode_of_ne
    have distinct : ((node :: rest).map (fun node => node.order.id)).Nodup := by
      rw [members]
      exact ids.sublist (List.filter_sublist.map _)
    rw [List.map_cons, List.nodup_cons] at distinct
    exact fun same => distinct.1 (same ▸ List.mem_map_of_mem member)
  have elsewhere : ∀ other ∈ nodes, other.order.side = side → other.order.price ≠ price →
      reduceNode node.order.id qty other = some other := by
    intro other member _ different
    apply reduceNode_of_ne
    intro same
    have equal : other = node := List.inj_on_of_nodup_map ids member inLevel.1 same
    exact different (by rw [equal]; exact (OrderNode.onLevel_iff.mp inLevel.2).2)
  have follows := groups.filterMap_level (keepsLevel_reduceNode node.order.id qty) found elsewhere
  have notLess : ¬node.order.quantity < qty := UInt32.not_lt.mpr enough
  by_cases exhausted : node.order.quantity = qty
  · subst exhausted
    have remaining : level.orders.filterMap (reduceNode node.order.id node.order.quantity) =
        rest := by
      rw [shape, List.filterMap_cons_none reduceNode_of_exhausted, filterMap_eq_self others]
    refine ⟨_, ?_, follows⟩
    simp only [LevelMap.reduceFront, front, shape, if_neg notLess, UInt32.sub_self, if_true]
    rw [Nat.add_comm] at total
    rw [← shape, remaining, PriceLevel.ofNodes, total, ofNat_sub_quantity]
  · have left : node.order.quantity - qty ≠ 0 := by
      rwa [Ne, UInt32.sub_eq_iff_eq_add, UInt32.zero_add]
    have remaining : level.orders.filterMap (reduceNode node.order.id qty) =
        ⟨node.addr, { node.order with quantity := node.order.quantity - qty }⟩ :: rest := by
      rw [shape, List.filterMap_cons_some (reduceNode_of_remaining exhausted),
        filterMap_eq_self others]
    have stored : ∀ level', (levels.update price (fun _ => level')).find? price = some level' := by
      intro level'
      rw [OrderedMap.find?_update, if_pos rfl, found, Option.map_some]
    rw [LevelMap.eraseLevelIfEmpty_of_ne_nil (stored _)
      (by rw [remaining]; exact List.cons_ne_nil _ _)] at follows
    refine ⟨_, ?_, follows⟩
    simp only [LevelMap.reduceFront, front, shape, if_neg notLess, if_neg left, if_neg exhausted]
    rw [← shape, remaining, PriceLevel.ofNodes, quantitySum_cons, total, ofNat_sub_filled enough]

end Groups

end Lob
