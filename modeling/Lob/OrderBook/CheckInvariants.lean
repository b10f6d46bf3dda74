import Lob.OrderBook.Groups
import Mathlib.Data.Finset.Lattice.Lemmas

/-!
# What `checkInvariants` decides

The nested loops of `checkInvariants` thread two counters through every order of the
book. `CheckState.advance` says what they hold after some orders, and each loop is
characterised by the facts about its own orders together with `CheckState.New`, the
part that depends on the orders seen before. The book is arbitrary throughout: levels
may be empty, totals wrong and the index unrelated.

`Intact` says without loops and counters what a book should be like. The check never looks
at an index entry without an order; that there is none follows from counting the orders.
-/

namespace Lob

theorem nodup_ids_length_lt {ids : List UInt64} (nodup : ids.Nodup)
    (nonzero : ∀ id ∈ ids, id ≠ 0) : ids.length < 2 ^ 64 := by
  have distinct : (0 :: ids.map UInt64.toNat).Nodup := by
    refine List.nodup_cons.mpr ⟨?_, nodup.map (fun _ _ => UInt64.toNat.inj)⟩
    intro zero
    obtain ⟨id, member, isZero⟩ := List.mem_map.mp zero
    exact nonzero id member (UInt64.toNat.inj isZero)
  have bounded : (0 :: ids.map UInt64.toNat) ⊆ List.range (2 ^ 64) := by
    intro n member
    rw [List.mem_range]
    rcases List.mem_cons.mp member with rfl | inIds
    · decide
    · obtain ⟨id, _, rfl⟩ := List.mem_map.mp inIds
      exact UInt64.toNat_lt id
  have length := (distinct.subperm bounded).length_le
  rwa [List.length_range, List.length_cons, List.length_map] at length

/-- The difference of two positive prices does not wrap. -/
theorem Int64.toInt_sub_of_pos {bid ask : Int64} (positive : 0 < bid) (positive' : 0 < ask) :
    (ask - bid).toInt = ask.toInt - bid.toInt := by
  rw [Int64.lt_iff_toInt_lt] at positive positive'
  have upper := Int64.toInt_lt ask
  have upper' := Int64.toInt_lt bid
  have zero : (0 : Int64).toInt = 0 := rfl
  rw [zero] at positive positive'
  rw [Int64.toInt_sub, Int.bmod_eq_of_le] <;> omega

theorem Int64.sub_pos_iff {bid ask : Int64} (positive : 0 < bid) (positive' : 0 < ask) :
    0 < ask - bid ↔ bid < ask := by
  rw [Int64.lt_iff_toInt_lt, Int64.lt_iff_toInt_lt, Int64.toInt_sub_of_pos positive positive']
  exact Int.sub_pos

end Lob

namespace Lob.OrderBook

/-! ### The captured counters -/

namespace CheckState

/-- The counters after the given nodes were counted. -/
def advance (state : CheckState) (nodes : List OrderNode) : CheckState where
  seenOrders := state.seenOrders + UInt64.ofNat nodes.length
  seenIds := state.seenIds ∪ (nodes.map (fun node => node.order.id)).toFinset

@[simp] theorem advance_nil (state : CheckState) : state.advance [] = state := by
  simp [advance]

theorem advance_append (state : CheckState) (front back : List OrderNode) :
    state.advance (front ++ back) = (state.advance front).advance back := by
  simp [advance, UInt64.ofNat_add, UInt64.add_assoc, Finset.union_assoc]

theorem advance_singleton (state : CheckState) (node : OrderNode) :
    state.advance [node] = ⟨state.seenOrders + 1, insert node.order.id state.seenIds⟩ := by
  simp [advance]

/-- The ids of the nodes are distinct and were not seen before. -/
def New (state : CheckState) (nodes : List OrderNode) : Prop :=
  (nodes.map (fun node => node.order.id)).Nodup ∧ ∀ node ∈ nodes, node.order.id ∉ state.seenIds

@[simp] theorem new_nil (state : CheckState) : state.New [] := by simp [New]

theorem new_append (state : CheckState) (front back : List OrderNode) :
    state.New (front ++ back) ↔ state.New front ∧ (state.advance front).New back := by
  simp only [New, advance, List.map_append, List.nodup_append, List.mem_append, Finset.mem_union,
    List.mem_toFinset, List.mem_map]
  grind

theorem new_singleton (state : CheckState) (node : OrderNode) :
    state.New [node] ↔ node.order.id ∉ state.seenIds := by
  simp [New]

end CheckState

/-! ### One level -/

/-- The tests of one order against its level and the index. -/
structure OrderChecked (locations : Locations) (side : Side) (price : Int64)
    (node : OrderNode) : Prop where
  id : node.order.id ≠ 0
  quantity : node.order.quantity ≠ 0
  onPrice : node.order.price = price
  onSide : node.order.side = side
  type : node.order.type = .limit
  located : locations.find? node.order.id = some ⟨side, price, node.addr⟩

/-- The sequences do not decrease, starting from the one before the first node. -/
def Ascending (previous : Option UInt64) (nodes : List OrderNode) : Prop :=
  (previous.toList ++ nodes.map (fun node => node.order.sequence)).IsChain (· ≤ ·)

theorem ascending_cons {previous : Option UInt64} {node : OrderNode} {rest : List OrderNode} :
    Ascending previous (node :: rest) ↔
      previous.any (fun sequence => decide (node.order.sequence < sequence)) = false ∧
        Ascending (some node.order.sequence) rest := by
  cases previous with
  | none => simp [Ascending]
  | some sequence => simp [Ascending, UInt64.not_lt]

/-- The body of the loop over a level, as one test. -/
theorem checkOrders_cons (locations : Locations) (side : Side) (price : Int64)
    (previous : Option UInt64) (sum : UInt64) (state : CheckState) (node : OrderNode)
    (rest : List OrderNode) (result : UInt64 × CheckState) :
    checkOrders locations side price previous sum state (node :: rest) = some result ↔
      OrderChecked locations side price node ∧
        previous.any (fun sequence => decide (node.order.sequence < sequence)) = false ∧
        node.order.id ∉ state.seenIds ∧
        checkOrders locations side price (some node.order.sequence)
          (sum + node.order.quantity.toUInt64) (state.advance [node]) rest = some result := by
  rw [CheckState.advance_singleton, checkOrders]
  constructor
  · intro passed
    split at passed
    · contradiction
    rename_i fields
    split at passed
    · contradiction
    rename_i ordered
    split at passed
    · contradiction
    rename_i unseen
    split at passed
    · contradiction
    rename_i loc found
    split at passed
    · contradiction
    rename_i pointing
    simp only [not_or, not_not] at fields pointing
    obtain ⟨hid, hquantity, hprice, hside, htype⟩ := fields
    obtain ⟨locSide, locPrice, locAddr⟩ := pointing
    refine ⟨⟨hid, hquantity, hprice, hside, htype, ?_⟩, by simpa using ordered, unseen, passed⟩
    rw [found, ← locSide, ← locPrice, ← locAddr]
  · rintro ⟨⟨hid, hquantity, hprice, hside, htype, located⟩, ordered, unseen, passed⟩
    simp [hid, hquantity, hprice, hside, htype, located, ordered, unseen, passed]

theorem checkOrders_eq_some_iff (locations : Locations) (side : Side) (price : Int64)
    (nodes : List OrderNode) (previous : Option UInt64) (sum : UInt64) (state : CheckState)
    (result : UInt64 × CheckState) :
    checkOrders locations side price previous sum state nodes = some result ↔
      ((∀ node ∈ nodes, OrderChecked locations side price node) ∧ Ascending previous nodes ∧
        state.New nodes) ∧
        result = (sum + UInt64.ofNat (quantitySum nodes), state.advance nodes) := by
  induction nodes generalizing previous sum state with
  | nil =>
      cases previous <;> simp [checkOrders, Ascending, eq_comm]
  | cons node rest ih =>
      have ids := state.new_append [node] rest
      rw [List.singleton_append, CheckState.new_singleton] at ids
      have counters := state.advance_append [node] rest
      rw [List.singleton_append] at counters
      have total : sum + node.order.quantity.toUInt64 + UInt64.ofNat (quantitySum rest) =
          sum + UInt64.ofNat (quantitySum (node :: rest)) := by
        rw [quantitySum_cons, Nat.add_comm, ← ofNat_add_quantity, UInt64.add_assoc,
          UInt64.add_comm (UInt64.ofNat _)]
      rw [checkOrders_cons, ih, ascending_cons, List.forall_mem_cons, ids, counters, total]
      tauto

/-- What the checks of a level ask of it, apart from the ids seen before. -/
structure LevelChecked (locations : Locations) (side : Side) (price : Int64)
    (level : PriceLevel) : Prop where
  nonempty : level.orders ≠ []
  orders : ∀ node ∈ level.orders, OrderChecked locations side price node
  ascending : level.orders.Pairwise (fun a b => a.order.sequence ≤ b.order.sequence)
  total : level.totalQuantity = UInt64.ofNat (quantitySum level.orders)

theorem ascending_none_iff {nodes : List OrderNode} :
    Ascending none nodes ↔ nodes.Pairwise (fun a b => a.order.sequence ≤ b.order.sequence) := by
  have trans : IsTrans UInt64 (· ≤ ·) := ⟨fun _ _ _ => UInt64.le_trans⟩
  rw [Ascending, Option.toList_none, List.nil_append, List.isChain_iff_pairwise, List.pairwise_map]

theorem checkLevel_eq_some_iff (locations : Locations) (side : Side) (price : Int64)
    (level : PriceLevel) (state result : CheckState) :
    checkLevel locations side price level state = some result ↔
      (LevelChecked locations side price level ∧ state.New level.orders) ∧
        result = state.advance level.orders := by
  have orders := checkOrders_eq_some_iff locations side price level.orders none 0 state
  rw [checkLevel]
  constructor
  · intro passed
    split at passed
    · contradiction
    rename_i nonempty
    split at passed
    · contradiction
    rename_i sum state' loop
    obtain ⟨⟨checked, ascending, new⟩, same⟩ := (orders _).mp loop
    obtain ⟨rfl, rfl⟩ := Prod.mk.inj same
    split at passed
    · rename_i total
      rw [UInt64.zero_add] at total
      exact ⟨⟨⟨by simpa using nonempty, checked, ascending_none_iff.mp ascending, total.symm⟩,
        new⟩, (Option.some.inj passed).symm⟩
    · contradiction
  · rintro ⟨⟨⟨nonempty, checked, ascending, total⟩, new⟩, rfl⟩
    rw [if_neg (by simpa using nonempty),
      (orders _).mpr ⟨⟨checked, ascending_none_iff.mpr ascending, new⟩, rfl⟩]
    simp [total]

/-! ### One side -/

/-- The orders of some levels, in the order in which they are checked. -/
def entryNodes (entries : List (Int64 × PriceLevel)) : List OrderNode :=
  entries.flatMap (fun entry => entry.2.orders)

/-- The loop over a side whose levels are in the order the loop expects. -/
theorem checkLevels_eq_some_iff (locations : Locations) (side : Side)
    (disordered : Int64 → Int64 → Bool) (entries : List (Int64 × PriceLevel))
    (previous : Option Int64)
    (sorted : (previous.toList ++ entries.map Prod.fst).IsChain
      (fun before price => disordered price before = false)) (state result : CheckState) :
    checkLevels locations side disordered previous state entries = some result ↔
      ((∀ entry ∈ entries, LevelChecked locations side entry.1 entry.2) ∧
        state.New (entryNodes entries)) ∧ result = state.advance (entryNodes entries) := by
  induction entries generalizing previous state with
  | nil => simp [checkLevels, entryNodes, eq_comm]
  | cons entry rest ih =>
      obtain ⟨price, level⟩ := entry
      have inOrder : previous.any (disordered price) = false := by
        cases previous with
        | none => rfl
        | some before => simpa using sorted.rel
      have sorted' : ((some price).toList ++ rest.map Prod.fst).IsChain
          (fun before price => disordered price before = false) := by
        cases previous with
        | none => simpa using sorted
        | some before => exact (List.isChain_cons_cons.mp sorted).2
      have nodes : entryNodes ((price, level) :: rest) = level.orders ++ entryNodes rest := rfl
      rw [nodes, CheckState.new_append, CheckState.advance_append, List.forall_mem_cons,
        checkLevels, inOrder, if_neg Bool.false_ne_true]
      constructor
      · intro passed
        split at passed
        · contradiction
        rename_i state' checked
        obtain ⟨⟨level, new⟩, rfl⟩ := (checkLevel_eq_some_iff _ _ _ _ _ _).mp checked
        obtain ⟨⟨levels, news⟩, same⟩ := (ih _ sorted' _).mp passed
        exact ⟨⟨⟨level, levels⟩, new, news⟩, same⟩
      · rintro ⟨⟨⟨level, levels⟩, new, news⟩, same⟩
        rw [(checkLevel_eq_some_iff _ _ _ _ _ _).mpr ⟨⟨level, new⟩, rfl⟩]
        exact (ih _ sorted' _).mpr ⟨⟨levels, news⟩, same⟩

/-! ### The book -/

/-- `checkInvariants` holds exactly when the spread is not closed, every level passes its
checks, no id occurs twice, and the index has as many entries as there are orders. -/
theorem checkInvariants_iff (book : OrderBook) :
    book.checkInvariants = true ↔
      (∀ spread, book.spread = some spread → 0 < spread) ∧
        (∀ entry ∈ book.buyLevels.entries, LevelChecked book.locations .buy entry.1 entry.2) ∧
        (∀ entry ∈ book.sellLevels.entries, LevelChecked book.locations .sell entry.1 entry.2) ∧
        (book.nodes.map (fun node => node.order.id)).Nodup ∧
        (UInt64.ofNat book.nodes.length).toNat = book.locations.size := by
  have buySorted : ((none : Option Int64).toList ++ book.buyLevels.entries.map Prod.fst).IsChain
      (fun before price => decide (price ≥ before) = false) := by
    refine List.Pairwise.isChain (List.pairwise_map.mpr (book.buyLevels.sorted.imp ?_))
    intro a b (above : a.1 > b.1)
    simpa using above
  have sellSorted : ((none : Option Int64).toList ++ book.sellLevels.entries.map Prod.fst).IsChain
      (fun before price => decide (price ≤ before) = false) := by
    refine List.Pairwise.isChain (List.pairwise_map.mpr (book.sellLevels.sorted.imp ?_))
    intro a b (below : a.1 < b.1)
    simpa using below
  have buy := checkLevels_eq_some_iff book.locations .buy _ book.buyLevels.entries none buySorted {}
  have sell := checkLevels_eq_some_iff book.locations .sell _ book.sellLevels.entries none
    sellSorted (CheckState.advance {} (entryNodes book.buyLevels.entries))
  have nodes : book.nodes =
      entryNodes book.buyLevels.entries ++ entryNodes book.sellLevels.entries := rfl
  have ids : CheckState.New {} book.nodes ↔ (book.nodes.map (fun node => node.order.id)).Nodup := by
    simp [CheckState.New]
  rw [← ids, nodes, CheckState.new_append]
  rw [checkInvariants]
  constructor
  · intro passed
    split at passed
    · contradiction
    rename_i opened
    split at passed
    · contradiction
    rename_i afterBuy bought
    split at passed
    · contradiction
    rename_i afterSell sold
    obtain ⟨⟨buyLevels, buyNew⟩, rfl⟩ := (buy _).mp bought
    obtain ⟨⟨sellLevels, sellNew⟩, rfl⟩ := (sell _).mp sold
    refine ⟨?_, buyLevels, sellLevels, ⟨buyNew, sellNew⟩, ?_⟩
    · intro spread isSpread
      simpa [isSpread, Int64.not_le] using opened
    · rw [← CheckState.advance_append] at passed
      simpa [CheckState.advance] using passed
  · rintro ⟨opened, buyLevels, sellLevels, ⟨buyNew, sellNew⟩, count⟩
    have unclosed : ¬book.spread.any (fun s => decide (s ≤ 0)) = true := by
      cases isSpread : book.spread with
      | none => simp
      | some spread => simpa [Int64.not_le] using opened spread isSpread
    rw [if_neg unclosed, (buy _).mpr ⟨⟨buyLevels, buyNew⟩, rfl⟩]
    dsimp only
    rw [(sell _).mpr ⟨⟨sellLevels, sellNew⟩, rfl⟩]
    rw [← CheckState.advance_append]
    simpa [CheckState.advance] using count

/-! ### What it means -/

/-- A level as the check wants it, in terms of its own data. -/
structure IntactLevel (side : Side) (price : Int64) (level : PriceLevel) : Prop where
  nonempty : level.orders ≠ []
  id : ∀ node ∈ level.orders, node.order.id ≠ 0
  quantity : ∀ node ∈ level.orders, node.order.quantity ≠ 0
  type : ∀ node ∈ level.orders, node.order.type = .limit
  onLevel : ∀ node ∈ level.orders, node.order.side = side ∧ node.order.price = price
  ascending : level.orders.Pairwise (fun a b => a.order.sequence ≤ b.order.sequence)
  total : level.totalQuantity = UInt64.ofNat (quantitySum level.orders)

/-- A book without a contradiction between its levels, its orders and its index. -/
structure Intact (book : OrderBook) : Prop where
  uncrossed : ∀ bid ask, book.bestBid = some bid → book.bestAsk = some ask → bid < ask
  buy : ∀ entry ∈ book.buyLevels.entries, IntactLevel .buy entry.1 entry.2
  sell : ∀ entry ∈ book.sellLevels.entries, IntactLevel .sell entry.1 entry.2
  ids : (book.nodes.map (fun node => node.order.id)).Nodup
  /-- The index has an entry for every resting order, which points at that very order, and
  no other entry. -/
  index : ∀ id loc, book.locations.find? id = some loc ↔
    ∃ node ∈ book.nodes, node.locate = (id, loc)

section Intact

variable {book : OrderBook} {locations : Locations} {side : Side} {price : Int64}
  {level : PriceLevel}

theorem spread_pos_iff (buy : ∀ entry ∈ book.buyLevels.entries, 0 < entry.1)
    (sell : ∀ entry ∈ book.sellLevels.entries, 0 < entry.1) :
    (∀ spread, book.spread = some spread → 0 < spread) ↔
      ∀ bid ask, book.bestBid = some bid → book.bestAsk = some ask → bid < ask := by
  have positive : ∀ bid ask, book.bestBid = some bid → book.bestAsk = some ask →
      (0 < ask - bid ↔ bid < ask) := by
    intro bid ask isBid isAsk
    obtain ⟨_, frontBid, rfl⟩ := Option.map_eq_some_iff.mp isBid
    obtain ⟨_, frontAsk, rfl⟩ := Option.map_eq_some_iff.mp isAsk
    exact Int64.sub_pos_iff (buy _ (OrderedMap.mem_of_front? frontBid))
      (sell _ (OrderedMap.mem_of_front? frontAsk))
  constructor
  · intro opened bid ask isBid isAsk
    refine (positive bid ask isBid isAsk).mp (opened _ ?_)
    rw [OrderBook.spread, isBid, isAsk]
  · intro uncrossed spread isSpread
    rw [OrderBook.spread] at isSpread
    split at isSpread
    · rename_i bid ask isBid isAsk
      obtain rfl := Option.some.inj isSpread
      exact (positive bid ask isBid isAsk).mpr (uncrossed bid ask isBid isAsk)
    · contradiction

/-- The checks of a level are those on its own data and the lookups of its orders. -/
theorem levelChecked_iff :
    LevelChecked locations side price level ↔
      IntactLevel side price level ∧
        ∀ node ∈ level.orders, locations.find? node.order.id = some node.locate.2 := by
  constructor
  · rintro ⟨nonempty, orders, ascending, total⟩
    refine ⟨⟨nonempty, fun node member => (orders node member).id,
      fun node member => (orders node member).quantity,
      fun node member => (orders node member).type,
      fun node member => ⟨(orders node member).onSide, (orders node member).onPrice⟩,
      ascending, total⟩, ?_⟩
    intro node member
    have checked := orders node member
    rw [checked.located, OrderNode.locate, checked.onSide, checked.onPrice]
  · rintro ⟨intact, located⟩
    refine ⟨intact.nonempty, fun node member => ?_, intact.ascending, intact.total⟩
    obtain ⟨onSide, onPrice⟩ := intact.onLevel node member
    refine ⟨intact.id node member, intact.quantity node member, onPrice, onSide,
      intact.type node member, ?_⟩
    rw [located node member, OrderNode.locate, onSide, onPrice]

theorem forall_nodes_iff {P : OrderNode → Prop} :
    (∀ node ∈ book.nodes, P node) ↔
      (∀ entry ∈ book.buyLevels.entries, ∀ node ∈ entry.2.orders, P node) ∧
        ∀ entry ∈ book.sellLevels.entries, ∀ node ∈ entry.2.orders, P node := by
  simp only [nodes, LevelMap.nodes, List.forall_mem_append, List.forall_mem_flatMap]

/-- The ids of the orders, if they are among the keys of the index and as many, are all its
keys. -/
theorem exists_node_of_find? (ids : (book.nodes.map (fun node => node.order.id)).Nodup)
    (located : ∀ node ∈ book.nodes, book.locations.find? node.order.id = some node.locate.2)
    (count : (book.nodes.map (fun node => node.order.id)).length =
      (book.locations.entries.map Prod.fst).length) {id : UInt64} {loc : OrderLocation}
    (found : book.locations.find? id = some loc) :
    ∃ node ∈ book.nodes, node.locate = (id, loc) := by
  have keys : book.nodes.map (fun node => node.order.id) ⊆
      book.locations.entries.map Prod.fst := by
    intro key member
    obtain ⟨node, inBook, rfl⟩ := List.mem_map.mp member
    exact List.mem_map_of_mem (book.locations.find?_eq_some_iff.mp (located node inBook))
  have perm := (ids.subperm keys).perm_of_length_le (Nat.le_of_eq count.symm)
  have inKeys : id ∈ book.locations.entries.map Prod.fst :=
    List.mem_map_of_mem (book.locations.find?_eq_some_iff.mp found)
  obtain ⟨node, inBook, rfl⟩ := List.mem_map.mp (perm.mem_iff.mpr inKeys)
  rw [located node inBook] at found
  exact ⟨node, inBook, by rw [← Option.some.inj found]; rfl⟩

/-- An index that finds the orders and nothing else has as many entries as there are orders. -/
theorem length_keys_of_index (ids : (book.nodes.map (fun node => node.order.id)).Nodup)
    (index : ∀ id loc, book.locations.find? id = some loc ↔
      ∃ node ∈ book.nodes, node.locate = (id, loc)) :
    (book.nodes.map (fun node => node.order.id)).length =
      (book.locations.entries.map Prod.fst).length := by
  apply List.Perm.length_eq
  rw [List.perm_ext_iff_of_nodup ids book.locations.keys_nodup]
  intro id
  simp only [List.mem_map, Prod.exists, exists_and_right, exists_eq_right]
  constructor
  · rintro ⟨node, inBook, rfl⟩
    exact ⟨_, book.locations.find?_eq_some_iff.mp ((index _ _).mpr ⟨node, inBook, rfl⟩)⟩
  · rintro ⟨loc, member⟩
    obtain ⟨node, inBook, same⟩ := (index _ _).mp (book.locations.find?_eq_some_iff.mpr member)
    exact ⟨node, inBook, (Prod.mk.inj same).1⟩

/-- An index that finds every order and has as many entries as there are orders has no other
entry. -/
theorem index_iff (ids : (book.nodes.map (fun node => node.order.id)).Nodup)
    (nonzero : ∀ node ∈ book.nodes, node.order.id ≠ 0) :
    ((∀ node ∈ book.nodes, book.locations.find? node.order.id = some node.locate.2) ∧
        (UInt64.ofNat book.nodes.length).toNat = book.locations.size) ↔
      ∀ id loc, book.locations.find? id = some loc ↔
        ∃ node ∈ book.nodes, node.locate = (id, loc) := by
  have few : book.nodes.length < 2 ^ 64 := by
    have bound := nodup_ids_length_lt ids (by
      intro id member
      obtain ⟨node, inBook, rfl⟩ := List.mem_map.mp member
      exact nonzero node inBook)
    rwa [List.length_map] at bound
  have length : (UInt64.ofNat book.nodes.length).toNat =
      (book.nodes.map (fun node => node.order.id)).length := by
    rw [UInt64.toNat_ofNat', Nat.mod_eq_of_lt few, List.length_map]
  have size : book.locations.size = (book.locations.entries.map Prod.fst).length := by
    rw [List.length_map, OrderedMap.size]
  rw [length, size]
  constructor
  · rintro ⟨located, count⟩ id loc
    constructor
    · exact exists_node_of_find? ids located count
    · rintro ⟨node, inBook, same⟩
      obtain ⟨rfl, rfl⟩ := Prod.mk.inj same
      exact located node inBook
  · intro index
    exact ⟨fun node inBook => (index _ _).mpr ⟨node, inBook, rfl⟩, length_keys_of_index ids index⟩

end Intact

/-- `checkInvariants` is sound and complete: on every book with positive prices as level
keys, whatever its lists, totals and index hold, it accepts exactly the intact ones. -/
theorem check_invariants_exact (book : OrderBook)
    (buy : ∀ entry ∈ book.buyLevels.entries, 0 < entry.1)
    (sell : ∀ entry ∈ book.sellLevels.entries, 0 < entry.1) :
    book.checkInvariants = true ↔ book.Intact := by
  rw [checkInvariants_iff, spread_pos_iff buy sell]
  simp only [levelChecked_iff]
  constructor
  · rintro ⟨uncrossed, buyLevels, sellLevels, ids, count⟩
    have located := forall_nodes_iff.mpr
      ⟨fun entry member => (buyLevels entry member).2,
        fun entry member => (sellLevels entry member).2⟩
    have nonzero := forall_nodes_iff.mpr
      ⟨fun entry member => (buyLevels entry member).1.id,
        fun entry member => (sellLevels entry member).1.id⟩
    exact ⟨uncrossed, fun entry member => (buyLevels entry member).1,
      fun entry member => (sellLevels entry member).1, ids,
      (index_iff ids nonzero).mp ⟨located, count⟩⟩
  · intro intact
    have nonzero := forall_nodes_iff.mpr
      ⟨fun entry member => (intact.buy entry member).id,
        fun entry member => (intact.sell entry member).id⟩
    obtain ⟨located, count⟩ := (index_iff intact.ids nonzero).mpr intact.index
    obtain ⟨buyLocated, sellLocated⟩ := forall_nodes_iff.mp located
    exact ⟨intact.uncrossed,
      fun entry member => ⟨intact.buy entry member, buyLocated entry member⟩,
      fun entry member => ⟨intact.sell entry member, sellLocated entry member⟩, intact.ids, count⟩

/-- A bid and an ask pass. With an entry for an order that is not in the book they do not. -/
theorem check_invariants_exact_dangling :
    let bid : OrderNode := ⟨0, { id := 7, side := .buy, price := 99, quantity := 5 }⟩
    let ask : OrderNode := ⟨1, { id := 8, side := .sell, price := 100, quantity := 6 }⟩
    let book : OrderBook :=
      { buyLevels := ⟨[(99, ⟨[bid], 5⟩)], by decide⟩
        sellLevels := ⟨[(100, ⟨[ask], 6⟩)], by decide⟩
        locations := ⟨[(7, ⟨.buy, 99, 0⟩), (8, ⟨.sell, 100, 1⟩)], by decide⟩ }
    let dangling : OrderBook :=
      { book with
        locations :=
          ⟨[(7, ⟨.buy, 99, 0⟩), (8, ⟨.sell, 100, 1⟩), (9, ⟨.sell, 100, 1⟩)], by decide⟩ }
    book.Intact ∧ ¬dangling.Intact := by
  intro bid ask book dangling
  exact ⟨(check_invariants_exact book (by decide) (by decide)).mp (by decide +kernel),
    (check_invariants_exact dangling (by decide) (by decide)).not.mp (by decide +kernel)⟩

end Lob.OrderBook
