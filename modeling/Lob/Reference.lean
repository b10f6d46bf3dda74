import Lob.MatchingEngine
import Mathlib.Algebra.Order.Ring.Nat
import Mathlib.Data.List.MinMax

/-!
# The flat-list reference engine

What the matching engine is for, without its data structures: the live orders form
one list in arrival order, and an incoming order repeatedly trades with the live
opposite order that has the best acceptable price, the earliest one among equals.

Static validation, the duplicate check and the risk rules are those of the engine.
Whether an order can be filled at once, whether a post-only order would trade and how
many orders are active are read off the list. The only question that the engine
answers from a cached machine integer is whether the executable quantity falls short
of the requested one. The reference takes that answer as a parameter, `shortfall`,
so that every fact about a single command is available before any bound on the
cached totals is known; `Reference.apply` passes the answer computed from the list.
-/

namespace Lob

/-- The live order is on the other side and its price is acceptable. -/
def Order.accepts (incoming live : Order) : Bool :=
  decide (live.side = incoming.opposite) && incoming.crosses live

/-- The price of a live order as the incoming order ranks it: smaller is better. -/
def Order.rank (incoming live : Order) : Int :=
  if incoming.side = .buy then live.price.toInt else -live.price.toInt

/-- The first of the items whose rank is least. -/
abbrev firstLeast {α β : Type*} [LinearOrder β] (rank : α → β) (items : List α) : Option α :=
  items.argmin rank

/-- The engine that keeps one list of live orders in arrival order. -/
structure Reference where
  live : List Order := []
  risk : RiskManager := {}
  seenOrderIds : Finset UInt64 := ∅
  sequence : UInt64 := 0
  nextTradeId : UInt64 := 1

namespace Reference

def fresh (limits : RiskLimits) : Reference := { risk := { limits } }

/-- The best acceptable live order, the earliest arrival among equal prices. -/
def pickBest (live : List Order) (incoming : Order) : Option Order :=
  firstLeast incoming.rank (live.filter incoming.accepts)

/-- The exact quantity an incoming order could trade at once. -/
def acceptableQuantity (live : List Order) (incoming : Order) : Nat :=
  ((live.filter incoming.accepts).map (fun order => order.quantity.toNat)).sum

def shortfall (live : List Order) (incoming : Order) : Bool :=
  decide (acceptableQuantity live incoming < incoming.quantity.toNat)

/-- What a fill of `traded` leaves of the order with the given id. -/
def reduce (orderId : UInt64) (traded : UInt32) (order : Order) : Option Order :=
  if order.id = orderId then
    if order.quantity = traded then none
    else some { order with quantity := order.quantity - traded }
  else some order

/-- The trade of an incoming order with a live one, at the price of the live order. -/
def tradeBetween (tradeId : UInt64) (incoming live : Order) (quantity : UInt32) : Trade where
  tradeId := tradeId
  buyOrderId := (if incoming.side = .buy then incoming else live).id
  sellOrderId := (if incoming.side = .buy then live else incoming).id
  price := live.price
  quantity := quantity
  sequence := incoming.sequence

structure MatchState where
  live : List Order
  order : Order
  nextTradeId : UInt64
  outTrades : List Trade

/-- Trade once with the best acceptable order, if any quantity is left to trade. -/
def matchStep (state : MatchState) : Option MatchState :=
  if state.order.quantity > 0 then
    match pickBest state.live state.order with
    | none => none
    | some best =>
        let traded := min state.order.quantity best.quantity
        some {
          live := state.live.filterMap (reduce best.id traded)
          order := { state.order with quantity := state.order.quantity - traded }
          nextTradeId := state.nextTradeId + 1
          outTrades := state.outTrades ++
            [tradeBetween state.nextTradeId state.order best traded] }
  else none

def matchLoop : Nat → MatchState → MatchState
  | 0, state => state
  | fuel + 1, state =>
      match matchStep state with
      | none => state
      | some next => matchLoop fuel next

structure Response where
  engine : Reference
  report : ExecutionReport
  outTrades : List Trade

def rejectReason (engine : Reference) (order : Order) (shortfall : Bool) : RejectReason :=
  if validateStatic order ≠ .none then validateStatic order
  else if order.id ∈ engine.seenOrderIds then .duplicateOrderId
  else
    let reason := engine.risk.validate order engine.live.length (order.mayRest && shortfall)
    if reason ≠ .none then reason
    else if hasFlag order.flags .postOnly && engine.live.any order.accepts then
      .postOnlyWouldTrade
    else if order.timeInForce = .fok ∧ shortfall = true then .fokNotFillable
    else .none

/-- The state in which the trades of an accepted order start. -/
def matchStart (engine : Reference) (order : Order) (outTrades : List Trade) : MatchState where
  live := engine.live
  order := { order with sequence := engine.sequence + 1 }
  nextTradeId := engine.nextTradeId
  outTrades := outTrades

/-- The state after the last trade of an accepted order. -/
def matchEnd (engine : Reference) (order : Order) (outTrades : List Trade) : MatchState :=
  matchLoop engine.live.length (engine.matchStart order outTrades)

/-- The report of an accepted order that is left with `remaining` after its trades. -/
def acceptedReport (engine : Reference) (order : Order) (remaining : UInt32) (tradeCount : Nat) :
    ExecutionReport where
  orderId := order.id
  sequence := engine.sequence + 1
  command := .newOrder
  status :=
    if remaining = 0 then .filled
    else if remaining ≠ order.quantity then .partiallyFilled
    else if order.mayRest then .resting
    else .expired
  rejectReason := .none
  requestedQuantity := order.quantity
  executedQuantity := order.quantity - remaining
  remainingQuantity := remaining
  tradeCount := UInt32.ofNat tradeCount

/-- Trade an accepted order and append its unfilled remainder if it may rest. -/
def execute (engine : Reference) (order : Order) (outTrades : List Trade) : Response :=
  let state := engine.matchEnd order outTrades
  { engine := { engine with
      live := if state.order.quantity > 0 ∧ order.mayRest = true then state.live ++ [state.order]
        else state.live
      seenOrderIds := insert order.id engine.seenOrderIds
      sequence := engine.sequence + 1
      nextTradeId := state.nextTradeId }
    report := engine.acceptedReport order state.order.quantity
      (state.outTrades.length - outTrades.length)
    outTrades := state.outTrades }

/-- The report of a rejected order. -/
def rejectedReport (engine : Reference) (order : Order) (reason : RejectReason) :
    ExecutionReport where
  orderId := order.id
  sequence := engine.sequence + 1
  command := .newOrder
  status := .rejected
  rejectReason := reason
  requestedQuantity := order.quantity
  remainingQuantity := order.quantity

def processOrder (engine : Reference) (order : Order) (shortfall : Bool)
    (outTrades : List Trade) : Response :=
  match engine.rejectReason order shortfall with
  | .none => engine.execute order outTrades
  | reason =>
      { engine := { engine with sequence := engine.sequence + 1 }
        report := engine.rejectedReport order reason
        outTrades := outTrades }

/-- The live order that a cancel of `orderId` removes. -/
def cancelTarget (engine : Reference) (orderId : UInt64) : Option Order :=
  if orderId = 0 then none else engine.live.find? (fun order => decide (order.id = orderId))

/-- Drop the live order with the given id. -/
def cancel (engine : Reference) (orderId : UInt64) (outTrades : List Trade) : Response :=
  let report : ExecutionReport :=
    { orderId := orderId, sequence := engine.sequence + 1, command := .cancelOrder }
  match engine.cancelTarget orderId with
  | none =>
      { engine := { engine with sequence := engine.sequence + 1 }
        report := { report with
          status := .rejected
          rejectReason := if orderId = 0 then .invalidOrderId else .orderNotFound }
        outTrades := outTrades }
  | some order =>
      { engine := { engine with
          sequence := engine.sequence + 1
          live := engine.live.filter (fun order => decide (order.id ≠ orderId)) }
        report := { report with
          status := .canceled
          rejectReason := .none
          requestedQuantity := order.quantity
          remainingQuantity := 0 }
        outTrades := outTrades }

/-- One command, with a given answer to the preflight question. -/
def applyWith (engine : Reference) (command : Command) (shortfall : Bool)
    (outTrades : List Trade) : Response :=
  match command with
  | .newOrder order => engine.processOrder order shortfall outTrades
  | .cancel orderId => engine.cancel orderId outTrades

/-- The preflight answer that the live list gives for a command. -/
def exactShortfall (engine : Reference) : Command → Bool
  | .newOrder order => shortfall engine.live order
  | .cancel _ => false

def apply (engine : Reference) (command : Command) (outTrades : List Trade) : Response :=
  engine.applyWith command (engine.exactShortfall command) outTrades

/-- The responses to a sequence of commands that share one trade vector. -/
def trace : Reference → List Command → List Trade → List Response
  | _, [], _ => []
  | engine, command :: commands, outTrades =>
      let response := engine.apply command outTrades
      response :: trace response.engine commands response.outTrades

/-- The state after a list of commands, each with an empty trade vector. -/
def runAll : Reference → List Command → Reference
  | engine, [] => engine
  | engine, command :: commands => runAll (engine.apply command []).engine commands

end Reference

end Lob
