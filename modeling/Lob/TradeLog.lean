import Lob.Library.Window
import Lob.Order
import Mathlib.Data.Vector.Basic
import Mathlib.Logic.Function.Basic

/-!
# Symbols and the trade log

`TradeLog` keeps the last trades of each symbol in a deque of bounded length. Each of its
operations runs under one mutex.
-/

namespace Lob

/-- `struct Symbol`: the eight bytes that its comparison and its hash look at. -/
structure Symbol where
  data : Vector UInt8 8
  deriving DecidableEq

/-- The constructor from a C string: `strncpy` stops at the end of the string and fills the
rest with zeros. -/
def Symbol.ofText (text : List UInt8) : Symbol where
  data := Vector.ofFn (fun i => (text.takeWhile (· ≠ 0)).getD i.val 0)

/-- The bytes of an ASCII literal. -/
def asciiBytes (literal : String) : List UInt8 :=
  literal.toList.map (fun letter => UInt8.ofNat letter.toNat)

/-- `std::hash<Symbol>`, FNV-1a. -/
def Symbol.hash (symbol : Symbol) : UInt64 :=
  symbol.data.toList.foldl (fun h byte => (h ^^^ byte.toUInt64) * 1099511628211)
    1469598103934665603

/-- `class TradeLog`; a symbol without a deque has an empty one. -/
structure TradeLog where
  maxPerSymbol : Nat := 200
  bySymbol : Symbol → List Trade := fun _ => []

/-- `TradeLog::record`. -/
def TradeLog.record (log : TradeLog) (symbol : Symbol) (trade : Trade) : TradeLog :=
  let deque := log.bySymbol symbol ++ [trade]
  { log with
    bySymbol := Function.update log.bySymbol symbol
      (if deque.length > log.maxPerSymbol then deque.drop 1 else deque) }

namespace TradeLog

/-- `TradeLog::recent`. -/
def recent (log : TradeLog) (symbol : Symbol) (count : Nat) : List Trade :=
  let deque := log.bySymbol symbol
  let n := min count deque.length
  deque.drop (deque.length - n)

/-- `TradeLog::count`. -/
def count (log : TradeLog) (symbol : Symbol) : Nat := (log.bySymbol symbol).length

@[simp] theorem maxPerSymbol_record (log : TradeLog) (symbol : Symbol) (trade : Trade) :
    (log.record symbol trade).maxPerSymbol = log.maxPerSymbol := rfl

@[simp] theorem bySymbol_record_self (log : TradeLog) (symbol : Symbol) (trade : Trade) :
    (log.record symbol trade).bySymbol symbol =
      Window.push log.maxPerSymbol (log.bySymbol symbol) trade :=
  Function.update_self _ _ _

theorem bySymbol_record_of_ne (log : TradeLog) {symbol other : Symbol} (different : other ≠ symbol)
    (trade : Trade) : (log.record symbol trade).bySymbol other = log.bySymbol other :=
  Function.update_of_ne different _ _

theorem recent_eq_rtake (log : TradeLog) (symbol : Symbol) (count : Nat) :
    log.recent symbol count = (log.bySymbol symbol).rtake count :=
  Window.rtake_min_length _ count

/-- A query shows the last trades of the window. -/
theorem recent_of_window {log : TradeLog} {symbol : Symbol} {recorded : List Trade}
    (window : log.bySymbol symbol = recorded.rtake log.maxPerSymbol) (count : Nat) :
    log.recent symbol count =
      recorded.rtake (min count (min log.maxPerSymbol recorded.length)) := by
  rw [recent_eq_rtake, window, Window.rtake_rtake, ← Nat.min_assoc, Window.rtake_min_length]

theorem count_of_window {log : TradeLog} {symbol : Symbol} {recorded : List Trade}
    (window : log.bySymbol symbol = recorded.rtake log.maxPerSymbol) :
    log.count symbol = min log.maxPerSymbol recorded.length := by
  rw [count, window, Window.length_rtake]

end TradeLog

end Lob
