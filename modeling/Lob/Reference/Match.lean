import Lob.Reference

/-!
# The matching loop of the reference engine

One lemma says everything a trade can do to the loop state; the loop rule turns a fact
that a trade preserves into a fact about the whole loop. The bound on the iterations
is enough: every trade that leaves the incoming order open has removed a live order.
-/

namespace Lob

/-- The facts about an order that passes static validation. -/
structure Order.StaticallyValid (order : Order) : Prop where
  id : order.id ≠ 0
  side : isValidSide order.side = true
  type : isValidOrderType order.type = true
  timeInForce : isValidTimeInForce order.timeInForce = true
  quantity : order.quantity ≠ 0
  price : order.type = .limit → 0 < order.price

theorem staticallyValid_of_validateStatic {order : Order} (valid : validateStatic order = .none) :
    order.StaticallyValid := by
  unfold validateStatic at valid
  repeat' split at valid
  all_goals first | contradiction | skip
  rename_i hid hside htype htif _ hquantity hprice _ _
  refine ⟨hid, by simpa using hside, by simpa using htype, by simpa using htif, hquantity, ?_⟩
  intro limit
  exact Int64.not_le.mp (fun negative => hprice ⟨limit, negative⟩)

namespace Reference

variable {state : MatchState}

/-! ### One trade -/

theorem reduce_of_ne {orderId : UInt64} {traded : UInt32} {order : Order}
    (other : order.id ≠ orderId) : reduce orderId traded order = some order := if_neg other

/-- A fill changes nothing of an order but its quantity. -/
theorem reduce_eq_some {orderId : UInt64} {traded : UInt32} {order order' : Order}
    (reduced : reduce orderId traded order = some order') :
    order' = { order with quantity := order'.quantity } := by
  unfold reduce at reduced
  split at reduced
  · split at reduced
    · contradiction
    · rw [← Option.some.inj reduced]
  · rw [← Option.some.inj reduced]

theorem pickBest_mem {live : List Order} {incoming best : Order}
    (picked : pickBest live incoming = some best) :
    best ∈ live ∧ incoming.accepts best = true :=
  List.mem_filter.mp (List.argmin_mem picked)

theorem pickBest_eq_none_iff {live : List Order} {incoming : Order} :
    pickBest live incoming = none ↔ live.filter incoming.accepts = [] := List.argmin_eq_none

/-- The engine writes the same trade. -/
theorem tradeBetween_eq (tradeId : UInt64) (incoming live : Order) (quantity : UInt32) :
    tradeBetween tradeId incoming live quantity = tradeOf tradeId incoming live quantity := by
  by_cases buy : incoming.side = .buy <;> simp [tradeBetween, tradeOf, buy]

/-- The engine writes the same report. -/
theorem acceptedReport_eq (engine : Reference) (order : Order) (remaining : UInt32)
    (tradeCount : Nat) :
    engine.acceptedReport order remaining tradeCount =
      MatchingEngine.acceptedReport order (engine.sequence + 1) remaining tradeCount := by
  have unfilled : order.quantity - remaining = 0 ↔ remaining = order.quantity := by grind
  have positive : remaining > 0 ↔ remaining ≠ 0 := UInt32.pos_iff_ne_zero
  simp only [acceptedReport, MatchingEngine.acceptedReport, unfilled, positive]
  by_cases filled : remaining = 0
  · simp only [filled, if_true]
  · by_cases whole : remaining = order.quantity
    · cases order.mayRest <;> simp [filled, ← whole]
    · cases order.mayRest <;> simp [filled, whole]

/-- The loop state after a trade with `best`. -/
def traded (state : MatchState) (best : Order) : MatchState :=
  let quantity := min state.order.quantity best.quantity
  { live := state.live.filterMap (reduce best.id quantity)
    order := { state.order with quantity := state.order.quantity - quantity }
    nextTradeId := state.nextTradeId + 1
    outTrades := state.outTrades ++ [tradeOf state.nextTradeId state.order best quantity] }

theorem matchStep_eq_some_iff {state next : MatchState} :
    matchStep state = some next ↔
      0 < state.order.quantity ∧ ∃ best, pickBest state.live state.order = some best ∧
        next = traded state best := by
  unfold matchStep
  by_cases opened : state.order.quantity > 0
  · rw [if_pos opened]
    cases picked : pickBest state.live state.order with
    | none => simp
    | some best =>
        simp only [Option.some.injEq, traded, tradeBetween_eq]
        exact ⟨fun same => ⟨opened, best, rfl, same.symm⟩,
          fun ⟨_, _, same, result⟩ => by rw [result, ← same]⟩
  · rw [if_neg opened]
    simp only [reduceCtorEq, false_iff, not_and]
    exact fun positive => absurd positive opened

theorem matchStep_eq_none_iff :
    matchStep state = none ↔
      state.order.quantity = 0 ∨ state.live.filter state.order.accepts = [] := by
  rw [← pickBest_eq_none_iff]
  unfold matchStep
  by_cases opened : state.order.quantity > 0
  · rw [if_pos opened]
    have positive : state.order.quantity ≠ 0 := UInt32.pos_iff_ne_zero.mp opened
    cases picked : pickBest state.live state.order with
    | none => simp
    | some best => simp [positive]
  · have zero : state.order.quantity = 0 := by
      by_contra positive
      exact opened (UInt32.pos_iff_ne_zero.mpr positive)
    simp [zero]

/-! ### The loop -/

/-- What every trade preserves holds when the loop ends. -/
theorem matchLoop_induction {P : MatchState → Prop}
    (step : ∀ state best, P state → 0 < state.order.quantity →
      pickBest state.live state.order = some best → P (traded state best)) (fuel : Nat)
    (start : P state) : P (matchLoop fuel state) := by
  induction fuel generalizing state with
  | zero => exact start
  | succ fuel ih =>
      rw [matchLoop]
      cases next : matchStep state with
      | none => exact start
      | some state' =>
          obtain ⟨opened, best, picked, rfl⟩ := matchStep_eq_some_iff.mp next
          exact ih (step state best start opened picked)

/-- Only the quantity of the incoming order changes. -/
theorem matchLoop_order (fuel : Nat) (state : MatchState) :
    (matchLoop fuel state).order =
      { state.order with quantity := (matchLoop fuel state).order.quantity } := by
  refine matchLoop_induction
    (P := fun current => current.order = { state.order with quantity := current.order.quantity })
    ?_ fuel rfl
  intro current best same _ _
  simp only [traded]
  rw [same]

/-- A trade exhausts the incoming order or removes a live order. -/
theorem traded_progress {best : Order} (picked : pickBest state.live state.order = some best) :
    (traded state best).order.quantity = 0 ∨
      (traded state best).live.length < state.live.length := by
  by_cases small : state.order.quantity ≤ best.quantity
  · have all : min state.order.quantity best.quantity = state.order.quantity := if_pos small
    exact Or.inl (by simp [traded, all])
  · have rest : min state.order.quantity best.quantity = best.quantity := if_neg small
    refine Or.inr ?_
    simp only [traded, rest]
    rw [List.length_filterMap_lt_length_iff_exists]
    exact ⟨best, (pickBest_mem picked).1, by simp [reduce]⟩

/-- The loop ends by its own condition when the bound covers the live orders. -/
theorem matchStep_matchLoop {fuel : Nat} (enough : state.live.length ≤ fuel) :
    matchStep (matchLoop fuel state) = none := by
  induction fuel generalizing state with
  | zero =>
      have empty : state.live = [] := List.length_eq_zero_iff.mp (Nat.le_zero.mp enough)
      exact matchStep_eq_none_iff.mpr (Or.inr (by simp [matchLoop, empty]))
  | succ fuel ih =>
      rw [matchLoop]
      cases next : matchStep state with
      | none => exact next
      | some state' =>
          obtain ⟨_, best, picked, rfl⟩ := matchStep_eq_some_iff.mp next
          rcases traded_progress picked with done | fewer
          · have stop : matchStep (traded state best) = none :=
              matchStep_eq_none_iff.mpr (Or.inl done)
            cases fuel with
            | zero => exact stop
            | succ fuel => simp only [matchLoop, stop]
          · exact ih (by omega)

end Reference

end Lob
