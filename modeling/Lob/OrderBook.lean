import Lob.Library.OrderedMap
import Lob.Order
import Mathlib.Data.Finset.Insert

/-!
# The price-time-priority order book

The book of `order_book.hpp` and `order_book.cpp`: two price-ordered maps of FIFO
levels and an index from order ids to the list node that holds the order.

A `std::list` node keeps its address for its whole life and an iterator is such an
address. Nodes therefore carry the address they were allocated at, and the index
stores addresses. `nextAddr` is the allocator: it never hands out the same address
twice. The index is an unordered map whose iteration order is never observed, so it
is modelled by a finite map with a canonical order.

Debug assertions and dereferences of an iterator that no list holds are `Fault`s.
The two sides are separate code paths in the source. Each path applies the same
operation to its own map; the operation is written once here for any comparator,
and the branch on the side stays where the source has it.
-/

namespace Lob

/-- `std::greater<int64_t>`, the comparator of the bid levels. -/
def greater (a b : Int64) : Prop := b < a

/-- `std::less<int64_t>`, the comparator of the ask levels. -/
def less (a b : Int64) : Prop := a < b

instance : DecidableRel greater := fun a b => inferInstanceAs (Decidable (b < a))
instance : DecidableRel less := fun a b => inferInstanceAs (Decidable (a < b))

instance : IsStrictTotalOrder Int64 less where
  trichotomous a b hab hba := by
    simp only [less] at hab hba
    grind
  irrefl a h := by
    simp only [less] at h
    grind
  trans a b c hab hbc := by
    simp only [less] at hab hbc ⊢
    grind

instance : IsStrictTotalOrder Int64 greater where
  trichotomous a b hab hba := Std.Trichotomous.trichotomous (r := less) a b hba hab
  irrefl a h := irrefl_of less a h
  trans _ _ _ hab hbc := trans_of less hbc hab

/-- The comparator of the id index; it only fixes a canonical entry order. -/
def idLess (a b : UInt64) : Prop := a < b

instance : DecidableRel idLess := fun a b => inferInstanceAs (Decidable (a < b))

instance : IsStrictTotalOrder UInt64 idLess where
  trichotomous a b hab hba := by
    simp only [idLess] at hab hba
    grind
  irrefl a h := by
    simp only [idLess] at h
    grind
  trans a b c hab hbc := by
    simp only [idLess] at hab hbc ⊢
    grind

/-- An assertion that failed, or an iterator used where it points to no node. -/
inductive Fault where
  | locationTaken
  | levelMissing
  | sideEmpty
  | quantityExceeded
  | noBestOrder
  | notInserted
  | danglingIterator
  deriving DecidableEq, Repr

/-- A node of a `std::list<Order>`. -/
structure OrderNode where
  addr : Nat
  order : Order
  deriving DecidableEq, Repr

/-- `struct PriceLevel`. -/
structure PriceLevel where
  orders : List OrderNode := []
  totalQuantity : UInt64 := 0
  deriving DecidableEq, Repr

/-- `struct LevelSnapshot`. -/
structure LevelSnapshot where
  price : Int64 := 0
  totalQuantity : UInt64 := 0
  orderCount : Nat := 0
  deriving DecidableEq, Repr

/-- `struct OrderLocation`. -/
structure OrderLocation where
  side : Side
  price : Int64
  orderIt : Nat
  deriving DecidableEq, Repr

/-- The price levels of one side, in the iteration order of `lt`. -/
abbrev LevelMap (lt : Int64 → Int64 → Prop) := OrderedMap Int64 PriceLevel lt

abbrev BuyMap := LevelMap greater
abbrev SellMap := LevelMap less
abbrev Locations := OrderedMap UInt64 OrderLocation idLess

namespace PriceLevel

/-- Append a node and account for its quantity. -/
def pushBack (level : PriceLevel) (node : OrderNode) : PriceLevel where
  orders := level.orders ++ [node]
  totalQuantity := level.totalQuantity + node.order.quantity.toUInt64

/-- Unlink the node at an iterator and account for its quantity. -/
def eraseNode (level : PriceLevel) (it : Nat) (quantity : UInt32) : PriceLevel where
  orders := level.orders.filter (fun node => decide (node.addr ≠ it))
  totalQuantity := level.totalQuantity - quantity.toUInt64

end PriceLevel

namespace LevelMap

variable {lt : Int64 → Int64 → Prop}

/-- Every node of a side, best level first and in FIFO order within a level. -/
def nodes (levels : LevelMap lt) : List OrderNode :=
  levels.entries.flatMap (fun e => e.2.orders)

/-- `try_emplace` of the level, then `push_back` through the returned iterator. -/
def pushBack [DecidableRel lt] [IsStrictTotalOrder Int64 lt] (levels : LevelMap lt)
    (price : Int64) (node : OrderNode) : LevelMap lt :=
  levels.upsert price (fun level => (level.getD {}).pushBack node)

def eraseLevelIfEmpty (levels : LevelMap lt) (price : Int64) : LevelMap lt :=
  match levels.find? price with
  | some level => if level.orders.isEmpty then levels.erase price else levels
  | none => levels

/-- The branch of `cancelOrder` on one side, after the index entry is gone. -/
def cancelNode (levels : LevelMap lt) (loc : OrderLocation) (canceled : Order) :
    Except Fault (LevelMap lt) :=
  match levels.find? loc.price with
  | none => .error .levelMissing
  | some level =>
      let levels := levels.update loc.price
        (fun _ => level.eraseNode loc.orderIt canceled.quantity)
      .ok (eraseLevelIfEmpty levels loc.price)

/-- The order at the front of the best level; null for an empty side. -/
def frontOfBest (levels : LevelMap lt) : Option Order :=
  match levels.front? with
  | none => none
  | some (_, level) => level.orders.head?.map OrderNode.order

/-- The branch of `reduceFront` on one side. The second component is the id whose
index entry is erased, present when the front order is exhausted. -/
def reduceFront (levels : LevelMap lt) (qty : UInt32) :
    Except Fault (LevelMap lt × Option UInt64) :=
  match levels.front? with
  | none => .error .sideEmpty
  | some (price, level) =>
      match level.orders with
      | [] => .error .danglingIterator
      | node :: rest =>
          if node.order.quantity < qty then .error .quantityExceeded
          else
            let quantity := node.order.quantity - qty
            let totalQuantity := level.totalQuantity - qty.toUInt64
            if quantity = 0 then
              let levels := levels.update price (fun _ => ⟨rest, totalQuantity⟩)
              .ok (eraseLevelIfEmpty levels price, some node.order.id)
            else
              let node := { node with order := { node.order with quantity := quantity } }
              .ok (levels.update price (fun _ => ⟨node :: rest, totalQuantity⟩), none)

/-- The loop of `executableQuantity` over one side, with its two `break`s. -/
def executableLoop (unacceptable : Int64 → Bool) (cap : UInt64) :
    UInt64 → List (Int64 × PriceLevel) → UInt64
  | total, [] => total
  | total, (price, level) :: rest =>
      if unacceptable price then total
      else
        let total := total + min level.totalQuantity (cap - total)
        if total = cap then total else executableLoop unacceptable cap total rest

/-- The loop of `topLevels` over one side. -/
def topLevels (levels : LevelMap lt) (maxLevels : Nat) : List LevelSnapshot :=
  (levels.entries.take maxLevels).map
    (fun e => ⟨e.1, e.2.totalQuantity, e.2.orders.length⟩)

end LevelMap

/-- `class OrderBook`. -/
structure OrderBook where
  buyLevels : BuyMap := ∅
  sellLevels : SellMap := ∅
  locations : Locations := ∅
  nextAddr : Nat := 0
  deriving DecidableEq

namespace OrderBook

def contains (book : OrderBook) (orderId : UInt64) : Bool := book.locations.contains orderId

/-- Every list node of the book. -/
def nodes (book : OrderBook) : List OrderNode :=
  LevelMap.nodes book.buyLevels ++ LevelMap.nodes book.sellLevels

/-- Dereference a list iterator. -/
def deref (book : OrderBook) (it : Nat) : Except Fault Order :=
  match book.nodes.find? (fun node => decide (node.addr = it)) with
  | none => .error .danglingIterator
  | some node => .ok node.order

/-- `locations_.emplace` followed by `assert(inserted)`. -/
def emplaceLocation (locations : Locations) (orderId : UInt64) (loc : OrderLocation) :
    Except Fault Locations :=
  if locations.contains orderId then .error .locationTaken
  else .ok (locations.upsert orderId (fun _ => loc))

/-- `OrderBook::addOrder`. The Boolean is the source's return value. -/
def addOrder (book : OrderBook) (order : Order) : Except Fault (OrderBook × Bool) :=
  if order.id = 0 ∨ order.quantity = 0 ∨ order.price ≤ 0 ∨ order.type ≠ .limit ∨
      book.contains order.id = true then
    .ok (book, false)
  else if order.side = .buy then do
    let node : OrderNode := ⟨book.nextAddr, order⟩
    let levels := LevelMap.pushBack book.buyLevels order.price node
    let locations ← emplaceLocation book.locations order.id ⟨.buy, order.price, node.addr⟩
    return ({ book with buyLevels := levels, locations, nextAddr := book.nextAddr + 1 }, true)
  else if order.side = .sell then do
    let node : OrderNode := ⟨book.nextAddr, order⟩
    let levels := LevelMap.pushBack book.sellLevels order.price node
    let locations ← emplaceLocation book.locations order.id ⟨.sell, order.price, node.addr⟩
    return ({ book with sellLevels := levels, locations, nextAddr := book.nextAddr + 1 }, true)
  else .ok (book, false)

/-- `OrderBook::cancelOrder`. The second component is the canceled order, and `none`
is the source's `false`. -/
def cancelOrder (book : OrderBook) (orderId : UInt64) :
    Except Fault (OrderBook × Option Order) :=
  match book.locations.find? orderId with
  | none => .ok (book, none)
  | some loc => do
      let canceled ← book.deref loc.orderIt
      let locations := book.locations.erase orderId
      if loc.side = .buy then do
        let levels ← LevelMap.cancelNode book.buyLevels loc canceled
        return ({ book with buyLevels := levels, locations }, some canceled)
      else do
        let levels ← LevelMap.cancelNode book.sellLevels loc canceled
        return ({ book with sellLevels := levels, locations }, some canceled)

def bestBid (book : OrderBook) : Option Int64 := book.buyLevels.front?.map Prod.fst

def bestAsk (book : OrderBook) : Option Int64 := book.sellLevels.front?.map Prod.fst

def spread (book : OrderBook) : Option Int64 :=
  match book.bestBid, book.bestAsk with
  | some bid, some ask => some (ask - bid)
  | _, _ => none

def depth (book : OrderBook) (side : Side) : Nat :=
  if side = .buy then book.buyLevels.size else book.sellLevels.size

def emptySide (book : OrderBook) (side : Side) : Bool :=
  if side = .buy then book.buyLevels.isEmpty else book.sellLevels.isEmpty

def orderCount (book : OrderBook) : Nat := book.locations.size

def frontOfBest (book : OrderBook) (side : Side) : Option Order :=
  if side = .buy then LevelMap.frontOfBest book.buyLevels
  else LevelMap.frontOfBest book.sellLevels

/-- `locations_.erase(order_it->id)` when the front order was exhausted. -/
def eraseExhausted (locations : Locations) : Option UInt64 → Locations
  | none => locations
  | some orderId => locations.erase orderId

/-- `OrderBook::reduceFront`. -/
def reduceFront (book : OrderBook) (side : Side) (qty : UInt32) : Except Fault OrderBook :=
  if side = .buy then do
    let (levels, exhausted) ← LevelMap.reduceFront book.buyLevels qty
    return { book with
      buyLevels := levels
      locations := eraseExhausted book.locations exhausted }
  else do
    let (levels, exhausted) ← LevelMap.reduceFront book.sellLevels qty
    return { book with
      sellLevels := levels
      locations := eraseExhausted book.locations exhausted }

/-- `OrderBook::wouldCross`. -/
def wouldCross (book : OrderBook) (incoming : Order) : Bool :=
  if !isValidSide incoming.side || !isValidOrderType incoming.type then false
  else
    let opposite := if incoming.side = .buy then Side.sell else Side.buy
    match book.frontOfBest opposite with
    | none => false
    | some best =>
        if incoming.type = .market then true
        else if incoming.side = .buy then decide (incoming.price ≥ best.price)
        else decide (incoming.price ≤ best.price)

/-- `OrderBook::executableQuantity`. -/
def executableQuantity (book : OrderBook) (incoming : Order) (cap : UInt64) : UInt64 :=
  if cap = 0 || !isValidSide incoming.side || !isValidOrderType incoming.type then 0
  else if incoming.side = .buy then
    LevelMap.executableLoop
      (fun price => decide (incoming.type = .limit ∧ incoming.price < price)) cap 0
      book.sellLevels.entries
  else
    LevelMap.executableLoop
      (fun price => decide (incoming.type = .limit ∧ incoming.price > price)) cap 0
      book.buyLevels.entries

def topLevels (book : OrderBook) (side : Side) (maxLevels : Nat) : List LevelSnapshot :=
  if side = .buy then LevelMap.topLevels book.buyLevels maxLevels
  else LevelMap.topLevels book.sellLevels maxLevels

/-- The counters that the lambda of `checkInvariants` captures by reference. -/
structure CheckState where
  seenOrders : UInt64 := 0
  seenIds : Finset UInt64 := ∅

/-- The loop of the lambda `check_level`. `previous` is the sequence of the order
before, absent for the first order; `none` is an early `return false`. -/
def checkOrders (locations : Locations) (side : Side) (price : Int64) :
    Option UInt64 → UInt64 → CheckState → List OrderNode → Option (UInt64 × CheckState)
  | _, sum, state, [] => some (sum, state)
  | previous, sum, state, node :: rest =>
      let order := node.order
      if order.id = 0 ∨ order.quantity = 0 ∨ order.price ≠ price ∨ order.side ≠ side ∨
          order.type ≠ .limit then none
      else if previous.any (fun sequence => decide (order.sequence < sequence)) then none
      else if order.id ∈ state.seenIds then none
      else
        match locations.find? order.id with
        | none => none
        | some loc =>
            if loc.side ≠ side ∨ loc.price ≠ price ∨ loc.orderIt ≠ node.addr then none
            else
              checkOrders locations side price (some order.sequence)
                (sum + order.quantity.toUInt64)
                ⟨state.seenOrders + 1, insert order.id state.seenIds⟩ rest

/-- The lambda `check_level` of `checkInvariants`. -/
def checkLevel (locations : Locations) (side : Side) (price : Int64) (level : PriceLevel)
    (state : CheckState) : Option CheckState :=
  if level.orders.isEmpty then none
  else
    match checkOrders locations side price none 0 state level.orders with
    | none => none
    | some (sum, state) => if sum = level.totalQuantity then some state else none

/-- A loop of `checkInvariants` over one side; `disordered` compares a price with the
price of the level before. -/
def checkLevels (locations : Locations) (side : Side) (disordered : Int64 → Int64 → Bool) :
    Option Int64 → CheckState → List (Int64 × PriceLevel) → Option CheckState
  | _, state, [] => some state
  | previous, state, (price, level) :: rest =>
      if previous.any (disordered price) then none
      else
        match checkLevel locations side price level state with
        | none => none
        | some state => checkLevels locations side disordered (some price) state rest

/-- `OrderBook::checkInvariants`. -/
def checkInvariants (book : OrderBook) : Bool :=
  if book.spread.any (fun s => decide (s ≤ 0)) then false
  else
    match checkLevels book.locations .buy (fun price previous => decide (price ≥ previous))
        none {} book.buyLevels.entries with
    | none => false
    | some state =>
        match checkLevels book.locations .sell (fun price previous => decide (price ≤ previous))
            none state book.sellLevels.entries with
        | none => false
        | some state => state.seenOrders.toNat = book.locations.size

end OrderBook

end Lob
