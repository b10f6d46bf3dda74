import Lob.OrderBook

/-!
# The matching engine

`risk_manager.cpp` and `matching_engine.cpp`. A command either returns its report
with the next engine state or hits a `Fault` of the book; that no fault is reachable
is a theorem about runs, not a convention of the model.

`processOrder` is split where the source splits it in prose: the reject exits before
the order is accepted are `rejectReason`, and everything from acceptance on is
`execute`. The matching loop takes one `matchStep` per iteration. It is bounded by the
number of resting orders, because an iteration that leaves the incoming order open has
removed a resting order; the bound is shown to be enough where the loop is analysed.
-/

namespace Lob

/-- `struct RiskLimits`, with the source's permissive defaults. -/
structure RiskLimits where
  maxOrderQuantity : UInt32 := 0xFFFFFFFF
  minLimitPrice : Int64 := 1
  maxLimitPrice : Int64 := Int64.maxValue
  maxOrderNotional : UInt64 := 0xFFFFFFFFFFFFFFFF
  maxActiveOrders : UInt64 := 0xFFFFFFFFFFFFFFFF
  deriving DecidableEq, Repr

/-- `class RiskManager`. -/
structure RiskManager where
  limits : RiskLimits := {}
  killSwitch : Bool := false
  deriving DecidableEq, Repr

/-- `RiskManager::validate`. -/
def RiskManager.validate (risk : RiskManager) (order : Order) (activeOrders : Nat)
    (mayAddActiveOrder : Bool) : RejectReason :=
  if risk.killSwitch then .riskKillSwitch
  else if order.quantity > risk.limits.maxOrderQuantity then .riskMaxOrderQuantity
  else if order.type = .limit ∧ (order.price < risk.limits.minLimitPrice ∨
      order.price > risk.limits.maxLimitPrice) then .riskPriceOutOfRange
  else if order.type = .limit ∧ order.quantity ≠ 0 ∧
      order.price.toUInt64 > risk.limits.maxOrderNotional / order.quantity.toUInt64 then
    .riskMaxNotional
  else if mayAddActiveOrder ∧ activeOrders ≥ risk.limits.maxActiveOrders.toNat then
    .riskMaxActiveOrders
  else .none

/-- `MatchingEngine::validateStatic`. -/
def validateStatic (order : Order) : RejectReason :=
  if order.id = 0 then .invalidOrderId
  else if !isValidSide order.side then .invalidSide
  else if !isValidOrderType order.type then .invalidOrderType
  else if !isValidTimeInForce order.timeInForce then .invalidTimeInForce
  else if order.flags.byte &&& ~~~OrderFlags.postOnly.byte ≠ 0 then .invalidOrderFlags
  else if order.quantity = 0 then .invalidQuantity
  else if order.type = .limit ∧ order.price ≤ 0 then .invalidLimitPrice
  else if order.type = .market ∧ order.timeInForce = .gtc then .marketOrderCannotBeGtc
  else if hasFlag order.flags .postOnly ∧ (order.type ≠ .limit ∨ order.timeInForce ≠ .gtc) then
    .postOnlyRequiresGtcLimit
  else .none

/-- `class MatchingEngine`. -/
structure MatchingEngine where
  book : OrderBook := {}
  risk : RiskManager := {}
  seenOrderIds : Finset UInt64 := ∅
  sequence : UInt64 := 0
  nextTradeId : UInt64 := 1
  acceptedOrders : UInt64 := 0
  rejectedOrders : UInt64 := 0
  canceledOrders : UInt64 := 0
  deriving DecidableEq

/-- What a call returns: the report, the caller's trade vector and the new state. -/
structure Response where
  engine : MatchingEngine
  report : ExecutionReport
  outTrades : List Trade
  deriving DecidableEq

/-- The side an incoming order trades against. -/
def Order.opposite (order : Order) : Side := if order.side = .buy then .sell else .buy

/-- The price test of the matching loop. -/
def Order.crosses (order best : Order) : Bool :=
  order.type = .market ||
    (if order.side = .buy then decide (order.price ≥ best.price)
      else decide (order.price ≤ best.price))

/-- An unfilled remainder of this order may be added to the book. -/
def Order.mayRest (order : Order) : Bool := order.type = .limit && order.timeInForce = .gtc

theorem Order.mayRest_iff {order : Order} :
    order.mayRest = true ↔ order.type = .limit ∧ order.timeInForce = .gtc := by
  simp [Order.mayRest]

/-- The trade of an incoming order against the best opposite order. -/
def tradeOf (tradeId : UInt64) (order best : Order) (quantity : UInt32) : Trade where
  tradeId := tradeId
  buyOrderId := if order.side = .buy then order.id else best.id
  sellOrderId := if order.side = .buy then best.id else order.id
  price := best.price
  quantity := quantity
  sequence := order.sequence

namespace MatchingEngine

def fresh (limits : RiskLimits) : MatchingEngine := { risk := { limits } }

/-- `MatchingEngine::tradeCount`. -/
def tradeCount (engine : MatchingEngine) : UInt64 := engine.nextTradeId - 1

/-- `MatchingEngine::rejectedReport`. -/
def rejectedReport (engine : MatchingEngine) (order : Order) (sequence : UInt64)
    (reason : RejectReason) : MatchingEngine × ExecutionReport :=
  ({ engine with rejectedOrders := engine.rejectedOrders + 1 },
    { orderId := order.id
      sequence := sequence
      command := .newOrder
      status := .rejected
      rejectReason := reason
      requestedQuantity := order.quantity
      remainingQuantity := order.quantity })

/-- The reject exits of `processOrder`, in order; `none` means accepted. -/
def rejectReason (engine : MatchingEngine) (order : Order) : RejectReason :=
  if validateStatic order ≠ .none then validateStatic order
  else if order.id ∈ engine.seenOrderIds then .duplicateOrderId
  else
    let executable := engine.book.executableQuantity order order.quantity.toUInt64
    let mayAddActiveOrder := order.mayRest && decide (executable < order.quantity.toUInt64)
    let reason := engine.risk.validate order engine.book.orderCount mayAddActiveOrder
    if reason ≠ .none then reason
    else if hasFlag order.flags .postOnly && engine.book.wouldCross order then
      .postOnlyWouldTrade
    else if order.timeInForce = .fok ∧ executable < order.quantity.toUInt64 then .fokNotFillable
    else .none

/-- The variables that the matching loop changes. -/
structure MatchState where
  book : OrderBook
  order : Order
  nextTradeId : UInt64
  outTrades : List Trade
  deriving DecidableEq

/-- One evaluation of the loop head and, if the loop continues, of its body;
`none` leaves the loop. -/
def matchStep (state : MatchState) : Except Fault (Option MatchState) :=
  let order := state.order
  if order.quantity > 0 ∧ state.book.emptySide order.opposite = false then
    match state.book.frontOfBest order.opposite with
    | none => .error .noBestOrder
    | some best =>
        if order.crosses best then do
          let traded := min order.quantity best.quantity
          let trade := tradeOf state.nextTradeId order best traded
          let book ← state.book.reduceFront order.opposite traded
          return some {
            book
            order := { order with quantity := order.quantity - traded }
            nextTradeId := state.nextTradeId + 1
            outTrades := state.outTrades ++ [trade] }
        else .ok none
  else .ok none

/-- The matching loop of `processOrder`, for at most `fuel` iterations. -/
def matchLoop : Nat → MatchState → Except Fault MatchState
  | 0, state => .ok state
  | fuel + 1, state => do
      match ← matchStep state with
      | none => return state
      | some next => matchLoop fuel next

/-- `assert(inserted)` around the insertion of an unfilled remainder. -/
def restRemainder (book : OrderBook) (order : Order) : Except Fault OrderBook := do
  let (book, inserted) ← book.addOrder order
  if inserted then return book else .error .notInserted

/-- The report of an accepted order whose loop left `remaining` of it unfilled. -/
def acceptedReport (order : Order) (sequence : UInt64) (remaining : UInt32) (tradeCount : Nat) :
    ExecutionReport :=
  let executed := order.quantity - remaining
  let shouldRest := decide (remaining > 0) && order.mayRest
  { orderId := order.id
    sequence := sequence
    command := .newOrder
    status :=
      if remaining = 0 then .filled
      else if shouldRest then if executed = 0 then .resting else .partiallyFilled
      else if executed = 0 then .expired
      else .partiallyFilled
    rejectReason := .none
    requestedQuantity := order.quantity
    executedQuantity := executed
    remainingQuantity := remaining
    tradeCount := UInt32.ofNat tradeCount }

/-- `processOrder` from the point where the command is accepted. -/
def execute (engine : MatchingEngine) (order : Order) (eventSequence : UInt64)
    (outTrades : List Trade) : Except Fault Response := do
  let state ← matchLoop engine.book.orderCount {
    book := engine.book
    order := { order with sequence := eventSequence }
    nextTradeId := engine.nextTradeId
    outTrades }
  let remaining := state.order.quantity
  let book ←
    if remaining > 0 ∧ order.mayRest = true then restRemainder state.book state.order
    else pure state.book
  return {
    engine := { engine with
      book
      seenOrderIds := insert order.id engine.seenOrderIds
      nextTradeId := state.nextTradeId
      acceptedOrders := engine.acceptedOrders + 1 }
    report := acceptedReport order eventSequence remaining
      (state.outTrades.length - outTrades.length)
    outTrades := state.outTrades }

/-- `MatchingEngine::processOrder`. -/
def processOrder (engine : MatchingEngine) (order : Order) (outTrades : List Trade) :
    Except Fault Response :=
  let eventSequence := engine.sequence + 1
  let engine := { engine with sequence := eventSequence }
  match engine.rejectReason order with
  | .none => engine.execute order eventSequence outTrades
  | reason =>
      let (engine, report) := engine.rejectedReport order eventSequence reason
      .ok { engine, report, outTrades }

/-- `MatchingEngine::cancel`. -/
def cancel (engine : MatchingEngine) (orderId : UInt64) :
    Except Fault (MatchingEngine × ExecutionReport) := do
  let engine := { engine with sequence := engine.sequence + 1 }
  let report : ExecutionReport :=
    { orderId := orderId, sequence := engine.sequence, command := .cancelOrder }
  let (book, canceled) ←
    if orderId = 0 then pure (engine.book, none) else engine.book.cancelOrder orderId
  match canceled with
  | none =>
      return (engine,
        { report with
          status := .rejected
          rejectReason := if orderId = 0 then .invalidOrderId else .orderNotFound })
  | some order =>
      return ({ engine with book, canceledOrders := engine.canceledOrders + 1 },
        { report with
          status := .canceled
          rejectReason := .none
          requestedQuantity := order.quantity
          remainingQuantity := 0 })

/-- Carry out one command with the caller's trade vector. -/
def apply (engine : MatchingEngine) (command : Command) (outTrades : List Trade) :
    Except Fault Response :=
  match command with
  | .newOrder order => engine.processOrder order outTrades
  | .cancel orderId => do
      let (engine, report) ← engine.cancel orderId
      return { engine, report, outTrades }

/-- The responses to a sequence of commands that share one trade vector. -/
def trace : MatchingEngine → List Command → List Trade → Except Fault (List Response)
  | _, [], _ => .ok []
  | engine, command :: commands, outTrades => do
      let response ← engine.apply command outTrades
      let responses ← trace response.engine commands response.outTrades
      return response :: responses

end MatchingEngine

end Lob
