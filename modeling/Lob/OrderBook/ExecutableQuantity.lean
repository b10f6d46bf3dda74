import Lob.OrderBook
import Mathlib.Algebra.BigOperators.Group.List.Basic
import Mathlib.Algebra.Ring.Nat

/-!
# The preflight quantity of any book

`executableQuantity` adds up cached level totals, best price first, and caps the sum. The
cached totals may be anything and their sum may exceed 64 bits by far: the loop adds at
most what is missing to the cap, so no addition wraps, and what it leaves out behind the
first unacceptable price is unacceptable as well. Nothing here asks where the book comes
from.
-/

namespace Lob

/-- The order may trade at this price. -/
def Order.acceptsPrice (incoming : Order) (price : Int64) : Bool :=
  incoming.type = .market ||
    (if incoming.side = .buy then decide (price ≤ incoming.price)
      else decide (incoming.price ≤ price))

namespace LevelMap

variable {entries : List (Int64 × PriceLevel)}

/-! ### One call of `add_level` -/

section AddLevel

variable {cap total : UInt64}

theorem toNat_addLevel (within : total ≤ cap) (quantity : UInt64) :
    (total + min quantity (cap - total)).toNat =
      min cap.toNat (total.toNat + quantity.toNat) := by
  have withinNat := UInt64.le_iff_toNat_le.mp within
  have capBound := cap.toNat_lt
  have added : (min quantity (cap - total)).toNat =
      min quantity.toNat (cap.toNat - total.toNat) := by
    rw [← UInt64.toNat_sub_of_le _ _ within, UInt64.toNat_min]
  rw [UInt64.toNat_add, added, Nat.mod_eq_of_lt (by omega)]
  omega

theorem addLevel_le (within : total ≤ cap) (quantity : UInt64) :
    total + min quantity (cap - total) ≤ cap := by
  rw [UInt64.le_iff_toNat_le, toNat_addLevel within]
  exact Nat.min_le_left _ _

/-- The call computes in exact integers: neither its subtraction nor its addition wraps. -/
structure ExactCall (cap : UInt64) (call : UInt64 × PriceLevel) : Prop where
  subtraction : call.1 ≤ cap
  addition : call.1.toNat + (min call.2.totalQuantity (cap - call.1)).toNat < 2 ^ 64

theorem exactCall (within : total ≤ cap) (level : PriceLevel) : ExactCall cap (total, level) where
  subtraction := within
  addition := by
    have withinNat := UInt64.le_iff_toNat_le.mp within
    have capBound := cap.toNat_lt
    dsimp only
    rw [UInt64.toNat_min, UInt64.toNat_sub_of_le _ _ within]
    omega

end AddLevel

/-! ### The loop -/

/-- The calls of `add_level` that the loop makes: the total before each and its level. -/
def addLevelCalls (unacceptable : Int64 → Bool) (cap : UInt64) :
    UInt64 → List (Int64 × PriceLevel) → List (UInt64 × PriceLevel)
  | _, [] => []
  | total, (price, level) :: rest =>
      if unacceptable price then []
      else
        let next := total + min level.totalQuantity (cap - total)
        (total, level) :: if next = cap then [] else addLevelCalls unacceptable cap next rest

/-- The total after some calls of `add_level`. -/
def totalAfter (cap total : UInt64) (calls : List (UInt64 × PriceLevel)) : UInt64 :=
  calls.foldl (fun total call => total + min call.2.totalQuantity (cap - total)) total

/-- The result of the loop is the total after its calls. -/
theorem executableLoop_eq_totalAfter (unacceptable : Int64 → Bool) (cap : UInt64)
    (entries : List (Int64 × PriceLevel)) (total : UInt64) :
    executableLoop unacceptable cap total entries =
      totalAfter cap total (addLevelCalls unacceptable cap total entries) := by
  induction entries generalizing total with
  | nil => rfl
  | cons entry rest ih =>
      obtain ⟨price, level⟩ := entry
      rw [executableLoop, addLevelCalls]
      split
      · rfl
      · dsimp only
        split
        · rfl
        · exact ih _

/-- Each call starts from the total that the calls before it have left. -/
theorem total_of_call (unacceptable : Int64 → Bool) {cap : UInt64} {total : UInt64}
    {front back : List (UInt64 × PriceLevel)} {call : UInt64 × PriceLevel}
    (calls : addLevelCalls unacceptable cap total entries = front ++ call :: back) :
    call.1 = totalAfter cap total front := by
  induction entries generalizing total front with
  | nil => simp [addLevelCalls] at calls
  | cons entry rest ih =>
      obtain ⟨price, level⟩ := entry
      rw [addLevelCalls] at calls
      split at calls
      · simp at calls
      · cases front with
        | nil =>
            obtain ⟨rfl, _⟩ := List.cons.inj calls
            rfl
        | cons first front =>
            obtain ⟨rfl, later⟩ := List.cons.inj calls
            split at later
            · simp at later
            · have earlier := ih later
              exact earlier

theorem exactCall_of_mem (unacceptable : Int64 → Bool) {cap : UInt64} {total : UInt64}
    (within : total ≤ cap) :
    ∀ call ∈ addLevelCalls unacceptable cap total entries, ExactCall cap call := by
  induction entries generalizing total with
  | nil => exact fun call member => absurd member List.not_mem_nil
  | cons entry rest ih =>
      obtain ⟨price, level⟩ := entry
      intro call member
      rw [addLevelCalls] at member
      split at member
      · exact absurd member List.not_mem_nil
      · rcases List.mem_cons.mp member with rfl | later
        · exact exactCall within level
        · split at later
          · exact absurd later List.not_mem_nil
          · exact ih (addLevel_le within level.totalQuantity) call later

/-- The capped sum that the loop computes. Stopping at the first unacceptable price, or when
the cap is reached, loses nothing. -/
theorem executableLoop_toNat (unacceptable : Int64 → Bool) (cap : UInt64) {total : UInt64}
    (within : total ≤ cap)
    (monotone : entries.Pairwise (fun a b => unacceptable a.1 = true → unacceptable b.1 = true)) :
    (executableLoop unacceptable cap total entries).toNat =
      min cap.toNat (total.toNat + ((entries.filter (fun e => !unacceptable e.1)).map
        (fun e => e.2.totalQuantity.toNat)).sum) := by
  have withinNat := UInt64.le_iff_toNat_le.mp within
  induction entries generalizing total with
  | nil => simp [executableLoop, withinNat]
  | cons entry rest ih =>
      obtain ⟨price, level⟩ := entry
      obtain ⟨later, restMonotone⟩ := List.pairwise_cons.mp monotone
      rw [executableLoop]
      cases stop : unacceptable price with
      | true =>
          have none : rest.filter (fun e => !unacceptable e.1) = [] := by
            rw [List.filter_eq_nil_iff]
            intro e member
            simp [later e member stop]
          rw [if_pos rfl, List.filter_cons_of_neg (by simp [stop]), none]
          simp [withinNat]
      | false =>
          have sum := toNat_addLevel within level.totalQuantity
          have below := addLevel_le within level.totalQuantity
          rw [if_neg Bool.false_ne_true, List.filter_cons_of_pos (by simp [stop]), List.map_cons,
            List.sum_cons]
          simp only
          by_cases full : total + min level.totalQuantity (cap - total) = cap
          · rw [if_pos full, full]
            rw [full] at sum
            omega
          · rw [if_neg full, ih below restMonotone (UInt64.le_iff_toNat_le.mp below)]
            omega

end LevelMap

/-! ### The book -/

namespace OrderBook

/-- The levels that an incoming order meets, best price first. -/
def oppositeLevels (book : OrderBook) (incoming : Order) : List (Int64 × PriceLevel) :=
  if incoming.side = .buy then book.sellLevels.entries else book.buyLevels.entries

/-- The exact sum of the cached totals over the opposite levels with an acceptable price. -/
def acceptableTotal (book : OrderBook) (incoming : Order) : Nat :=
  (((book.oppositeLevels incoming).filter (fun entry => incoming.acceptsPrice entry.1)).map
    (fun entry => entry.2.totalQuantity.toNat)).sum

/-- The calls of `add_level` in `executableQuantity`. -/
def addLevelCalls (book : OrderBook) (incoming : Order) (cap : UInt64) :
    List (UInt64 × PriceLevel) :=
  if cap = 0 || !isValidSide incoming.side || !isValidOrderType incoming.type then []
  else if incoming.side = .buy then
    LevelMap.addLevelCalls
      (fun price => decide (incoming.type = .limit ∧ incoming.price < price)) cap 0
      book.sellLevels.entries
  else
    LevelMap.addLevelCalls
      (fun price => decide (incoming.type = .limit ∧ incoming.price > price)) cap 0
      book.buyLevels.entries

variable {book : OrderBook} {incoming : Order}

/-- Behind an unacceptable price there are only unacceptable ones. -/
theorem acceptsPrice_sorted (book : OrderBook) (incoming : Order) :
    (book.oppositeLevels incoming).Pairwise (fun a b =>
      (!incoming.acceptsPrice a.1) = true → (!incoming.acceptsPrice b.1) = true) := by
  unfold oppositeLevels Order.acceptsPrice
  by_cases buy : incoming.side = .buy
  · simp only [buy, if_true]
    refine book.sellLevels.sorted.imp ?_
    intro a b (less : a.1 < b.1)
    simp only [Bool.not_or, Bool.and_eq_true, Bool.not_eq_true', decide_eq_false_iff_not,
      Int64.not_le]
    exact fun stop => ⟨stop.1, Int64.lt_trans stop.2 less⟩
  · simp only [buy, if_false]
    refine book.buyLevels.sorted.imp ?_
    intro a b (less : b.1 < a.1)
    simp only [Bool.not_or, Bool.and_eq_true, Bool.not_eq_true', decide_eq_false_iff_not,
      Int64.not_le]
    exact fun stop => ⟨stop.1, Int64.lt_trans less stop.2⟩

/-- The loop that `executableQuantity` runs for a valid order. -/
theorem executableQuantity_eq_loop (side : isValidSide incoming.side = true)
    (type : isValidOrderType incoming.type = true) {cap : UInt64} (positive : cap ≠ 0) :
    book.executableQuantity incoming cap =
      LevelMap.executableLoop (fun price => !incoming.acceptsPrice price) cap 0
        (book.oppositeLevels incoming) := by
  have guarded : (decide (cap = 0) || !isValidSide incoming.side ||
      !isValidOrderType incoming.type) = false := by simp [positive, side, type]
  have limit : incoming.type = .limit ↔ incoming.type ≠ .market := by
    rcases isValidOrderType_iff.mp type with limit | market
    · simp [limit, OrderType.limit_ne_market]
    · simp [market, OrderType.limit_ne_market.symm]
  rw [executableQuantity, guarded, if_neg Bool.false_ne_true, oppositeLevels]
  by_cases buy : incoming.side = .buy
  · rw [if_pos buy, if_pos buy]
    congr 1
    funext price
    rw [Bool.eq_iff_iff]
    simp [Order.acceptsPrice, buy, limit, Int64.not_le]
  · rw [if_neg buy, if_neg buy]
    congr 1
    funext price
    rw [Bool.eq_iff_iff]
    simp [Order.acceptsPrice, buy, limit, Int64.not_le]

theorem executableQuantity_eq_min (side : isValidSide incoming.side = true)
    (type : isValidOrderType incoming.type = true) (cap : UInt64) :
    (book.executableQuantity incoming cap).toNat =
      min cap.toNat (book.acceptableTotal incoming) := by
  by_cases zero : cap = 0
  · simp [executableQuantity, zero]
  · rw [executableQuantity_eq_loop side type zero,
      LevelMap.executableLoop_toNat _ cap UInt64.zero_le (book.acceptsPrice_sorted incoming),
      UInt64.toNat_zero, Nat.zero_add, acceptableTotal]
    simp only [Bool.not_not]

theorem exactCall_addLevelCalls (book : OrderBook) (incoming : Order) (cap : UInt64) :
    ∀ call ∈ book.addLevelCalls incoming cap, LevelMap.ExactCall cap call := by
  unfold addLevelCalls
  split
  · exact fun call member => absurd member List.not_mem_nil
  split
  · exact LevelMap.exactCall_of_mem _ UInt64.zero_le
  · exact LevelMap.exactCall_of_mem _ UInt64.zero_le

theorem executableQuantity_eq_totalAfter (book : OrderBook) (incoming : Order) (cap : UInt64) :
    book.executableQuantity incoming cap =
      LevelMap.totalAfter cap 0 (book.addLevelCalls incoming cap) := by
  unfold executableQuantity addLevelCalls
  split
  · rfl
  split
  · exact LevelMap.executableLoop_eq_totalAfter _ cap _ 0
  · exact LevelMap.executableLoop_eq_totalAfter _ cap _ 0

theorem total_of_addLevelCall {cap : UInt64} {front back : List (UInt64 × PriceLevel)}
    {call : UInt64 × PriceLevel}
    (calls : book.addLevelCalls incoming cap = front ++ call :: back) :
    call.1 = LevelMap.totalAfter cap 0 front := by
  unfold addLevelCalls at calls
  split at calls
  · simp at calls
  split at calls
  · exact LevelMap.total_of_call _ calls
  · exact LevelMap.total_of_call _ calls

/-- `executableQuantity` is an exact saturating sum, for every book whatever its levels hold:
the result is the smaller of the cap and the exact sum over the acceptable opposite levels, and
no call of `add_level` wraps. The calls are those of the loop: each starts from the total that
the calls before it have left, and the result is the total after the last. -/
theorem executable_quantity_saturates (book : OrderBook) {incoming : Order}
    (side : isValidSide incoming.side = true) (type : isValidOrderType incoming.type = true)
    (cap : UInt64) :
    (book.executableQuantity incoming cap).toNat =
        min cap.toNat (book.acceptableTotal incoming) ∧
      (∀ call ∈ book.addLevelCalls incoming cap, LevelMap.ExactCall cap call) ∧
      book.executableQuantity incoming cap =
        LevelMap.totalAfter cap 0 (book.addLevelCalls incoming cap) ∧
      ∀ front call back, book.addLevelCalls incoming cap = front ++ call :: back →
        call.1 = LevelMap.totalAfter cap 0 front :=
  ⟨executableQuantity_eq_min side type cap, book.exactCall_addLevelCalls incoming cap,
    book.executableQuantity_eq_totalAfter incoming cap, fun _ _ _ => total_of_addLevelCall⟩

/-- Two acceptable levels whose totals sum to more than `2 ^ 64`. -/
theorem executable_quantity_saturates_huge :
    let level : PriceLevel := { totalQuantity := 0xFFFFFFFFFFFFFFFF }
    let book : OrderBook :=
      { sellLevels := ⟨[(100, level), (101, level)], by decide⟩ }
    let incoming : Order := { id := 1, side := .buy, price := 101, quantity := 10 }
    (book.executableQuantity incoming 0xFFFFFFFFFFFFFFFF).toNat =
        min (2 ^ 64 - 1) (book.acceptableTotal incoming) ∧
      book.acceptableTotal incoming = 2 ^ 65 - 2 :=
  ⟨(executable_quantity_saturates _ (by decide) (by decide) _).1, by decide +kernel⟩

end OrderBook

end Lob
