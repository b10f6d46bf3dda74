import Lob.Reference.Ledger
import Lob.Reference.Trades
import Mathlib.Algebra.BigOperators.Ring.Finset
import Mathlib.Algebra.Order.BigOperators.Group.List
import Mathlib.Algebra.Order.Ring.Int

/-!
# The risk envelope

The limits that `RiskManager::validate` enforces at admission hold for everything that
follows from the admitted orders: what rests, what is traded and how many orders are
active. The notional test of the source divides instead of multiplying, so that nothing
overflows; for a positive quantity it is the comparison of the exact product.

The cap on active orders is tested before the order trades, with a prediction of whether
it will rest. The prediction is right when the preflight answer is exact.
-/

namespace Lob

variable {price : Int64}

/-! ### Exact products -/

/-- The exact product of price and quantity. -/
def notional (price : Int64) (quantity : UInt32) : Int := price.toInt * quantity.toNat

/-- A price and a quantity within the limits. -/
structure RiskLimits.Allows (limits : RiskLimits) (price : Int64) (quantity : UInt32) : Prop where
  minPrice : limits.minLimitPrice ≤ price
  maxPrice : price ≤ limits.maxLimitPrice
  maxQuantity : quantity ≤ limits.maxOrderQuantity
  maxNotional : notional price quantity ≤ limits.maxOrderNotional.toNat

theorem toInt_pos (positive : 0 < price) : 0 < price.toInt := by
  simpa using Int64.lt_iff_toInt_lt.mp positive

theorem notional_mono (positive : 0 < price) {quantity quantity' : UInt32}
    (smaller : quantity' ≤ quantity) : notional price quantity' ≤ notional price quantity := by
  have fewer : (quantity'.toNat : Int) ≤ quantity.toNat := by
    exact_mod_cast UInt32.le_iff_toNat_le.mp smaller
  exact mul_le_mul_of_nonneg_left fewer (toInt_pos positive).le

theorem RiskLimits.Allows.of_le {limits : RiskLimits} {quantity quantity' : UInt32}
    (allows : limits.Allows price quantity) (positive : 0 < price)
    (smaller : quantity' ≤ quantity) : limits.Allows price quantity' :=
  ⟨allows.minPrice, allows.maxPrice, UInt32.le_trans smaller allows.maxQuantity,
    (notional_mono positive smaller).trans allows.maxNotional⟩

theorem toNat_toUInt64_of_pos (positive : 0 < price) :
    (price.toUInt64.toNat : Int) = price.toInt := by
  have value : price.toInt = price.toUInt64.toBitVec.toInt := rfl
  have sign := toInt_pos positive
  have bound := UInt64.toNat_lt price.toUInt64
  rw [value, BitVec.toInt_eq_toNat_cond, UInt64.toNat_toBitVec] at sign ⊢
  split at sign
  · rename_i small
    rw [if_pos small]
  · omega

/-- The division of the source decides the comparison of the exact product. -/
theorem notional_test (positive : 0 < price) {quantity : UInt32} (nonzero : quantity ≠ 0)
    (bound : UInt64) :
    price.toUInt64 > bound / quantity.toUInt64 ↔ (bound.toNat : Int) < notional price quantity := by
  have count : 0 < quantity.toNat := UInt32.lt_iff_toNat_lt.mp (UInt32.pos_iff_ne_zero.mpr nonzero)
  rw [gt_iff_lt, UInt64.lt_iff_toNat_lt, UInt64.toNat_div, UInt32.toNat_toUInt64,
    Nat.div_lt_iff_lt_mul count, notional, ← toNat_toUInt64_of_pos positive]
  norm_cast

/-! ### What the risk check admits -/

/-- What an order has met that passed the risk check. -/
structure RiskLimits.Admits (limits : RiskLimits) (order : Order) (activeOrders : Nat)
    (mayAddActiveOrder : Bool) : Prop where
  allows : order.type = .limit → limits.Allows order.price order.quantity
  active : mayAddActiveOrder = true → activeOrders < limits.maxActiveOrders.toNat

theorem RiskManager.admits_of_validate {risk : RiskManager} {order : Order} {activeOrders : Nat}
    {mayAddActiveOrder : Bool} (valid : order.StaticallyValid)
    (passed : risk.validate order activeOrders mayAddActiveOrder = .none) :
    risk.limits.Admits order activeOrders mayAddActiveOrder := by
  unfold RiskManager.validate at passed
  repeat' split at passed
  all_goals first | contradiction | skip
  rename_i _ quantity price product active
  have quantity' : order.quantity ≤ risk.limits.maxOrderQuantity := UInt32.not_lt.mp quantity
  refine ⟨?_, ?_⟩
  · intro limit
    have bounds : ¬(order.price < risk.limits.minLimitPrice ∨
        order.price > risk.limits.maxLimitPrice) := fun outside => price ⟨limit, outside⟩
    have fits : ¬order.price.toUInt64 >
        risk.limits.maxOrderNotional / order.quantity.toUInt64 :=
      fun exceeds => product ⟨limit, valid.quantity, exceeds⟩
    rw [notional_test (valid.price limit) valid.quantity] at fits
    exact ⟨Int64.not_lt.mp (fun below => bounds (Or.inl below)),
      Int64.not_lt.mp (fun above => bounds (Or.inr above)), quantity', not_lt.mp fits⟩
  · intro mayAdd
    exact Nat.lt_of_not_le (fun full => active ⟨mayAdd, full⟩)

namespace Reference

variable {engine : Reference} {order : Order} {shortfall : Bool}
variable {limits : RiskLimits} {response : Response} {outTrades new : List Trade}
  {command : Command}

theorem admits_of_rejectReason (passed : engine.rejectReason order shortfall = .none) :
    engine.risk.limits.Admits order engine.live.length (order.mayRest && shortfall) := by
  have valid := (passed_of_rejectReason passed).valid
  unfold rejectReason at passed
  split at passed
  · contradiction
  · split at passed
    · contradiction
    · dsimp only at passed
      split at passed
      · contradiction
      · rename_i admitted
        exact RiskManager.admits_of_validate valid (not_not.mp admitted)

theorem validateStatic_ne_riskMaxNotional (order : Order) :
    validateStatic order ≠ .riskMaxNotional := by
  unfold validateStatic
  repeat' split
  all_goals exact RejectReason.noConfusion

/-- The engine blames the notional only if the exact product is too large. -/
theorem notional_of_rejectReason
    (refused : engine.rejectReason order shortfall = .riskMaxNotional) :
    (engine.risk.limits.maxOrderNotional.toNat : Int) < notional order.price order.quantity := by
  unfold rejectReason at refused
  split at refused
  · exact absurd refused (validateStatic_ne_riskMaxNotional order)
  · rename_i checked
    have valid := staticallyValid_of_validateStatic (not_not.mp checked)
    split at refused
    · contradiction
    · dsimp only at refused
      split at refused
      · unfold RiskManager.validate at refused
        repeat' split at refused
        all_goals first | contradiction | skip
        rename_i exceeds
        exact (notional_test (valid.price exceeds.1) valid.quantity _).mp exceeds.2.2
      · repeat' split at refused
        all_goals contradiction

/-! ### The envelope -/

/-- The part of the envelope that does not depend on the preflight answer: what rests is
within the limits on price, quantity and notional. -/
structure WithinLimits (engine : Reference) (limits : RiskLimits) : Prop where
  risk : engine.risk.limits = limits
  live : ∀ order ∈ engine.live, limits.Allows order.price order.quantity

theorem withinLimits_fresh (limits : RiskLimits) : (fresh limits).WithinLimits limits :=
  ⟨rfl, fun _ member => absurd member List.not_mem_nil⟩

/-- What the trades of an accepted order leave, and the trades themselves. -/
theorem WithinLimits.matchEnd (within : engine.WithinLimits limits) (sound : engine.Sound)
    (trades : LoopTrades (engine.matchStart order outTrades) new
      (engine.matchEnd order outTrades)) :
    (∀ live ∈ (engine.matchEnd order outTrades).live,
      limits.Allows live.price live.quantity) ∧
    ∀ trade ∈ new, limits.Allows trade.price trade.quantity := by
  constructor
  · intro live member
    obtain ⟨_, origin, inLive, same, smaller⟩ := trades.live live member
    have samePrice : live.price = origin.price := by rw [Order.terms_eq_iff.mp same]
    rw [samePrice]
    exact (within.live origin inLive).of_le (sound.restable origin inLive).price smaller
  · intro trade member
    obtain ⟨resting, inLive, between⟩ := trades.between trade member
    have samePrice : trade.price = resting.price := by rw [between.terms]; rfl
    rw [samePrice]
    exact (within.live resting inLive).of_le (sound.restable resting inLive).price
      between.quantity

/-- The remainder of an accepted order is no larger than the order. -/
theorem LoopTrades.remaining_le {start current : MatchState} {new : List Trade}
    (trades : LoopTrades start new current) : current.order.quantity ≤ start.order.quantity := by
  have quantities := trades.quantities
  rw [UInt32.le_iff_toNat_le]
  omega

theorem WithinLimits.execute (within : engine.WithinLimits limits) (sound : engine.Sound)
    (passed : engine.rejectReason order shortfall = .none) (outTrades : List Trade) :
    (engine.execute order outTrades).engine.WithinLimits limits := by
  obtain ⟨new, trades⟩ := sound.exists_loopTrades order outTrades
  have kept := (within.matchEnd sound trades).1
  rcases engine.execute_engine order outTrades with same | ⟨mayRest, _, rested⟩
  · rw [same]
    exact ⟨within.risk, kept⟩
  · have admits := admits_of_rejectReason passed
    rw [within.risk] at admits
    have limit : order.type = .limit := (Order.mayRest_iff.mp mayRest).1
    have price := (passed_of_rejectReason passed).valid.price limit
    rw [rested]
    refine ⟨within.risk, ?_⟩
    intro live member
    rcases List.mem_append.mp member with old | last
    · exact kept live old
    · rw [List.mem_singleton.mp last]
      have samePrice : (engine.matchEnd order outTrades).order.price = order.price := by
        rw [Order.terms_eq_iff.mp (engine.matchEnd_order order outTrades)]
      rw [samePrice]
      exact (admits.allows limit).of_le price trades.remaining_le

theorem WithinLimits.step (within : engine.WithinLimits limits) (sound : engine.Sound)
    {outTrades : List Trade} (step : engine.Step outTrades command shortfall response) :
    response.engine.WithinLimits limits := by
  cases step with
  | rejected _ _ => exact ⟨within.risk, within.live⟩
  | accepted passed => exact within.execute sound passed outTrades
  | missing _ => exact ⟨within.risk, within.live⟩
  | canceled _ =>
      exact ⟨within.risk, fun order member => within.live order (List.mem_filter.mp member).1⟩

/-- Everything that rests is within the limits. -/
structure Enveloped (engine : Reference) (limits : RiskLimits) : Prop where
  risk : engine.risk.limits = limits
  active : engine.live.length ≤ limits.maxActiveOrders.toNat
  live : ∀ order ∈ engine.live, limits.Allows order.price order.quantity

theorem enveloped_fresh (limits : RiskLimits) : (fresh limits).Enveloped limits :=
  ⟨rfl, Nat.zero_le _, fun _ member => absurd member List.not_mem_nil⟩

theorem Enveloped.within (enveloped : engine.Enveloped limits) :
    engine.WithinLimits limits := ⟨enveloped.risk, enveloped.live⟩

/-- With the exact preflight answer an accepted order finds room before it rests. -/
theorem Enveloped.active_execute (enveloped : engine.Enveloped limits) (sound : engine.Sound)
    (passed : engine.rejectReason order (Reference.shortfall engine.live order) = .none)
    (outTrades : List Trade) :
    (engine.execute order outTrades).engine.live.length ≤ limits.maxActiveOrders.toNat := by
  have fewer := (engine.matchEnd_terms order outTrades).length_le
  rw [List.length_map, List.length_map] at fewer
  have active := enveloped.active
  rcases engine.execute_engine order outTrades with same | ⟨mayRest, rest, rested⟩
  · rw [same]
    exact fewer.trans active
  · have admits := admits_of_rejectReason passed
    rw [enveloped.risk] at admits
    -- an order that could be filled at once leaves nothing to rest
    have short : Reference.shortfall engine.live order = true := by
      by_contra fillable
      exact rest (matchEnd_filled sound (Bool.eq_false_iff.mpr fillable) outTrades)
    have room := admits.active (by rw [mayRest, short]; rfl)
    rw [rested]
    dsimp only
    rw [List.length_append, List.length_singleton]
    omega

theorem Enveloped.step (enveloped : engine.Enveloped limits) (sound : engine.Sound)
    {outTrades : List Trade}
    (step : engine.Step outTrades command (engine.exactShortfall command) response) :
    response.engine.Enveloped limits := by
  have within := enveloped.within.step sound step
  refine ⟨within.risk, ?_, within.live⟩
  cases step with
  | rejected _ _ => exact enveloped.active
  | accepted passed => exact enveloped.active_execute sound passed outTrades
  | missing _ => exact enveloped.active
  | canceled _ => exact (List.length_filter_le _ _).trans enveloped.active

/-! ### The trades of one command -/

/-- The trades of a step are within the limits. -/
theorem Enveloped.trades (enveloped : engine.Enveloped limits) (sound : engine.Sound)
    (step : engine.Step outTrades command shortfall response)
    (appended : response.outTrades = outTrades ++ new) :
    ∀ trade ∈ new, limits.Allows trade.price trade.quantity := by
  have none : outTrades = outTrades ++ new →
      ∀ trade ∈ new, limits.Allows trade.price trade.quantity := by
    intro same trade member
    rw [List.self_eq_append_right.mp same] at member
    exact absurd member List.not_mem_nil
  cases step with
  | rejected _ _ => exact none appended
  | missing _ => exact none appended
  | canceled _ => exact none appended
  | @accepted incoming _ _ =>
      obtain ⟨new', trades⟩ := sound.exists_loopTrades incoming outTrades
      obtain rfl := List.append_cancel_left (appended.symm.trans trades.outTrades)
      exact (enveloped.within.matchEnd sound trades).2

/-- A BUY LIMIT order never pays more than its own notional. -/
theorem LoopTrades.notional_le {start current : MatchState} {new : List Trade}
    (trades : LoopTrades start new current) (buy : start.order.side = .buy)
    (limit : start.order.type = .limit) (positive : 0 < start.order.price) :
    (new.map (fun trade => notional trade.price trade.quantity)).sum ≤
      notional start.order.price start.order.quantity := by
  have each : ∀ trade ∈ new, notional trade.price trade.quantity ≤
      start.order.price.toInt * trade.quantity.toNat := by
    intro trade member
    obtain ⟨resting, _, between⟩ := trades.between trade member
    have samePrice : trade.price = resting.price := by rw [between.terms]; rfl
    have acceptable : resting.price ≤ start.order.price := by
      have accepted := between.accepted
      simp only [Order.accepts, Order.crosses, buy, limit, OrderType.limit_ne_market,
        Bool.and_eq_true, decide_false, Bool.false_or, if_true, decide_eq_true_eq] at accepted
      exact accepted.2
    rw [samePrice]
    exact mul_le_mul_of_nonneg_right (Int64.le_iff_toInt_le.mp acceptable) (Int.natCast_nonneg _)
  have filled : (((new.map (fun trade => trade.quantity.toNat)).sum : Nat) : Int) ≤
      start.order.quantity.toNat := by
    have quantities := trades.quantities
    omega
  calc (new.map (fun trade => notional trade.price trade.quantity)).sum
      ≤ (new.map (fun trade => start.order.price.toInt * (trade.quantity.toNat : Int))).sum :=
        List.sum_le_sum each
    _ = start.order.price.toInt * ((new.map (fun trade => trade.quantity.toNat)).sum : Nat) := by
        rw [List.sum_map_mul_left, Nat.cast_list_sum, List.map_map]
        rfl
    _ ≤ notional start.order.price start.order.quantity :=
        mul_le_mul_of_nonneg_left filled (toInt_pos positive).le

/-- The trades of an accepted BUY LIMIT order together. -/
theorem Enveloped.buyLimit (enveloped : engine.Enveloped limits) (sound : engine.Sound)
    (step : engine.Step outTrades (.newOrder order) shortfall response)
    (appended : response.outTrades = outTrades ++ new) (accepted : response.report.accepted = true)
    (buy : order.side = .buy) (limit : order.type = .limit) :
    (new.map (fun trade => notional trade.price trade.quantity)).sum ≤
      limits.maxOrderNotional.toNat := by
  cases step with
  | rejected _ _ => exact absurd accepted (by simp [rejectedReport, ExecutionReport.accepted])
  | accepted passed =>
      obtain ⟨new', trades⟩ := sound.exists_loopTrades order outTrades
      obtain rfl := List.append_cancel_left (appended.symm.trans trades.outTrades)
      have admits := admits_of_rejectReason passed
      rw [enveloped.risk] at admits
      have price := (passed_of_rejectReason passed).valid.price limit
      exact (trades.notional_le buy limit price).trans (admits.allows limit).maxNotional

theorem Enveloped.blamed (enveloped : engine.Enveloped limits) {outTrades : List Trade}
    (step : engine.Step outTrades (.newOrder order) shortfall response)
    (blamed : response.report.rejectReason = .riskMaxNotional) :
    (limits.maxOrderNotional.toNat : Int) < notional order.price order.quantity := by
  cases step with
  | rejected refused _ =>
      have reason : _ = RejectReason.riskMaxNotional := blamed
      rw [← enveloped.risk]
      exact notional_of_rejectReason (refused.trans reason)
  | accepted _ => exact absurd blamed RejectReason.noConfusion

end Reference

end Lob
