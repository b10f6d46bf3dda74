import Mathlib.Logic.Basic

/-!
# Orders, trades and execution reports

The records of `order.hpp`, `trade.hpp` and `execution_report.hpp`, with the machine
widths of the source. Enumerations that an order carries arrive as raw bytes from a
journal or from shared memory, and a C++ enumeration with a fixed underlying type
holds any value of that type. They are therefore modelled by their byte, and the
named enumerators are particular bytes. Enumerations that only the engine produces
are ordinary inductive types.
-/

namespace Lob

/-- `enum class Side : uint8_t`. -/
structure Side where
  byte : UInt8
  deriving DecidableEq, Repr

namespace Side

def buy : Side := ⟨0⟩
def sell : Side := ⟨1⟩

theorem buy_ne_sell : buy ≠ sell := by decide

end Side

/-- `enum class OrderType : uint8_t`. -/
structure OrderType where
  byte : UInt8
  deriving DecidableEq, Repr

namespace OrderType

def limit : OrderType := ⟨0⟩
def market : OrderType := ⟨1⟩

theorem limit_ne_market : limit ≠ market := by decide

end OrderType

/-- `enum class TimeInForce : uint8_t`. -/
structure TimeInForce where
  byte : UInt8
  deriving DecidableEq, Repr

namespace TimeInForce

def gtc : TimeInForce := ⟨0⟩
def ioc : TimeInForce := ⟨1⟩
def fok : TimeInForce := ⟨2⟩

theorem gtc_ne_ioc : gtc ≠ ioc := by decide

theorem gtc_ne_fok : gtc ≠ fok := by decide

theorem ioc_ne_fok : ioc ≠ fok := by decide

end TimeInForce

/-- `enum class OrderFlags : uint8_t`, a bit set. -/
structure OrderFlags where
  byte : UInt8
  deriving DecidableEq, Repr

namespace OrderFlags

def none : OrderFlags := ⟨0⟩
def postOnly : OrderFlags := ⟨1⟩

end OrderFlags

def hasFlag (value flag : OrderFlags) : Bool := (value.byte &&& flag.byte) != 0

def isValidSide (side : Side) : Bool := side = .buy || side = .sell

def isValidOrderType (type : OrderType) : Bool := type = .limit || type = .market

def isValidTimeInForce (tif : TimeInForce) : Bool := tif = .gtc || tif = .ioc || tif = .fok

theorem isValidSide_iff {side : Side} : isValidSide side = true ↔ side = .buy ∨ side = .sell := by
  simp [isValidSide]

theorem isValidOrderType_iff {type : OrderType} :
    isValidOrderType type = true ↔ type = .limit ∨ type = .market := by
  simp [isValidOrderType]

/-- `struct Order`. Prices are integer ticks; `sequence` is assigned by the engine. -/
structure Order where
  id : UInt64 := 0
  side : Side := .buy
  type : OrderType := .limit
  timeInForce : TimeInForce := .gtc
  flags : OrderFlags := .none
  price : Int64 := 0
  quantity : UInt32 := 0
  sequence : UInt64 := 0
  deriving DecidableEq, Repr

/-- `struct Trade`. The price is the resting order's price. -/
structure Trade where
  tradeId : UInt64 := 0
  buyOrderId : UInt64 := 0
  sellOrderId : UInt64 := 0
  price : Int64 := 0
  quantity : UInt32 := 0
  sequence : UInt64 := 0
  deriving DecidableEq, Repr

inductive CommandType where
  | newOrder
  | cancelOrder
  deriving DecidableEq, Repr

inductive ExecutionStatus where
  | rejected
  | resting
  | partiallyFilled
  | filled
  | expired
  | canceled
  deriving DecidableEq, Repr

inductive RejectReason where
  | none
  | invalidOrderId
  | duplicateOrderId
  | invalidSide
  | invalidOrderType
  | invalidTimeInForce
  | invalidOrderFlags
  | invalidQuantity
  | invalidLimitPrice
  | marketOrderCannotBeGtc
  | postOnlyRequiresGtcLimit
  | postOnlyWouldTrade
  | fokNotFillable
  | riskKillSwitch
  | riskMaxOrderQuantity
  | riskPriceOutOfRange
  | riskMaxNotional
  | riskMaxActiveOrders
  | orderNotFound
  | ingressQueueFull
  | engineShuttingDown
  | journalError
  deriving DecidableEq, Repr

/-- `struct ExecutionReport`, without its reserved padding byte. -/
structure ExecutionReport where
  orderId : UInt64 := 0
  sequence : UInt64 := 0
  command : CommandType := .newOrder
  status : ExecutionStatus := .rejected
  rejectReason : RejectReason := .none
  requestedQuantity : UInt32 := 0
  executedQuantity : UInt32 := 0
  remainingQuantity : UInt32 := 0
  tradeCount : UInt32 := 0
  deriving DecidableEq, Repr

def ExecutionReport.accepted (report : ExecutionReport) : Bool := report.status != .rejected

/-- A command accepted by the engine's public interface. -/
inductive Command where
  | newOrder (order : Order)
  | cancel (orderId : UInt64)
  deriving DecidableEq, Repr

end Lob
