import Lob.Reference.Invariant
import Mathlib.Algebra.BigOperators.Group.List.Basic

/-!
# The trades of one command

What the matching loop appends to the trade list. `LoopTrades` relates the appended
trades to the state the loop started in and to the state it has reached: the ids go on
counting, every trade is between the incoming order and an order that was live and
acceptable, no live order is hit twice, prices only get worse, and the traded quantities
account for what the incoming order has lost. One trade preserves all of it.
-/

namespace Lob

/-- The party of a trade that was live when the given order came in. -/
def Trade.restingId (trade : Trade) (incoming : Order) : UInt64 :=
  if incoming.side = .buy then trade.sellOrderId else trade.buyOrderId

/-- The first price is at least as good for the given order as the second. -/
def Order.prefers (incoming : Order) (price price' : Int64) : Prop :=
  if incoming.side = .buy then price ≤ price' else price' ≤ price

/-- The trade is one of `incoming` with `resting`. -/
structure Trade.Between (trade : Trade) (incoming resting : Order) : Prop where
  terms : trade = tradeOf trade.tradeId incoming resting trade.quantity
  accepted : incoming.accepts resting = true
  positive : trade.quantity ≠ 0
  quantity : trade.quantity ≤ resting.quantity

theorem Trade.restingId_tradeOf (tradeId : UInt64) (incoming resting : Order) (quantity : UInt32) :
    (tradeOf tradeId incoming resting quantity).restingId incoming = resting.id := by
  by_cases buy : incoming.side = .buy <;> simp [Trade.restingId, tradeOf, buy]

theorem Trade.Between.restingId {trade : Trade} {incoming resting : Order}
    (between : trade.Between incoming resting) : trade.restingId incoming = resting.id := by
  rw [between.terms, Trade.restingId_tradeOf]

theorem Order.prefers_iff_rank {incoming a b : Order} :
    incoming.prefers a.price b.price ↔ incoming.rank a ≤ incoming.rank b := by
  unfold Order.prefers Order.rank
  by_cases buy : incoming.side = .buy
  · simp [buy, Int64.le_iff_toInt_le]
  · simp [buy, Int64.le_iff_toInt_le]

namespace Reference

variable {engine : Reference}

/-- What the trades `new` that led the loop from `start` to `current` are. -/
structure LoopTrades (start : MatchState) (new : List Trade) (current : MatchState) : Prop where
  outTrades : current.outTrades = start.outTrades ++ new
  order : current.order.terms = start.order.terms
  ids : (current.live.map Order.id).Sublist (start.live.map Order.id)
  live : ∀ order ∈ current.live, order.quantity ≠ 0 ∧
    ∃ origin ∈ start.live, order.terms = origin.terms ∧ order.quantity ≤ origin.quantity
  nextTradeId : current.nextTradeId = start.nextTradeId + UInt64.ofNat new.length
  numbered : new.map Trade.tradeId =
    (List.range new.length).map (fun i => start.nextTradeId + UInt64.ofNat i)
  quantities : (new.map (fun trade => trade.quantity.toNat)).sum +
    current.order.quantity.toNat = start.order.quantity.toNat
  between : ∀ trade ∈ new, ∃ resting ∈ start.live, trade.Between start.order resting
  gone : ∀ trade ∈ new, current.order.quantity = 0 ∨
    ∀ order ∈ current.live, order.id ≠ trade.restingId start.order
  distinct : (new.map (fun trade => trade.restingId start.order)).Nodup
  behind : ∀ trade ∈ new, ∀ order ∈ current.live, start.order.accepts order = true →
    start.order.prefers trade.price order.price
  sorted : new.Pairwise (fun a b => start.order.prefers a.price b.price)

theorem loopTrades_start {state : MatchState}
    (positive : ∀ order ∈ state.live, order.quantity ≠ 0) : LoopTrades state [] state where
  outTrades := (List.append_nil _).symm
  order := rfl
  ids := List.Sublist.refl _
  live order member := ⟨positive order member, order, member, rfl, UInt32.le_refl _⟩
  nextTradeId := by simp
  numbered := rfl
  quantities := by simp
  between _ member := absurd member List.not_mem_nil
  gone _ member := absurd member List.not_mem_nil
  distinct := List.nodup_nil
  behind _ member := absurd member List.not_mem_nil
  sorted := .nil

section Step

variable {start current : MatchState} {new : List Trade} {best : Order} {order : Order}

theorem reduce_quantity_le {orderId : UInt64} {traded : UInt32} {order order' : Order}
    (enough : order.id = orderId → traded ≤ order.quantity)
    (reduced : reduce orderId traded order = some order') : order'.quantity ≤ order.quantity := by
  unfold reduce at reduced
  split at reduced
  · rename_i same
    split at reduced
    · contradiction
    · rw [← Option.some.inj reduced]
      have difference := UInt32.toNat_sub_of_le _ _ (enough same)
      rw [UInt32.le_iff_toNat_le]
      dsimp only
      omega
  · rw [← Option.some.inj reduced]
    exact UInt32.le_refl _

/-- An order that is live after a trade was live before it, with the same terms. -/
theorem exists_before {orderId : UInt64} {traded : UInt32} {live : List Order}
    (member : order ∈ live.filterMap (reduce orderId traded)) :
    ∃ before ∈ live, reduce orderId traded before = some order ∧ order.terms = before.terms := by
  obtain ⟨before, inLive, reduced⟩ := List.mem_filterMap.mp member
  exact ⟨before, inLive, reduced, Order.terms_eq_iff.mpr (reduce_eq_some reduced)⟩

/-- The order that a trade picks is the only one with its id. -/
theorem LoopTrades.eq_best (trades : LoopTrades start new current)
    (unique : (start.live.map Order.id).Nodup) (member : best ∈ current.live)
    (inLive : order ∈ current.live) (same : order.id = best.id) : order = best :=
  List.inj_on_of_nodup_map (unique.sublist trades.ids) inLive member same

theorem LoopTrades.live_traded (trades : LoopTrades start new current)
    (unique : (start.live.map Order.id).Nodup)
    (picked : pickBest current.live current.order = some best) :
    ∀ order ∈ (traded current best).live, order.quantity ≠ 0 ∧
      ∃ origin ∈ start.live, order.terms = origin.terms ∧ order.quantity ≤ origin.quantity := by
  intro order member
  obtain ⟨before, inLive, reduced, same⟩ := exists_before member
  obtain ⟨positive, origin, inStart, sameTerms, smaller⟩ := trades.live before inLive
  have enough : before.id = best.id →
      min current.order.quantity best.quantity ≤ before.quantity := by
    intro sameId
    rw [trades.eq_best unique (pickBest_mem picked).1 inLive sameId]
    exact Std.min_le_right
  exact ⟨reduce_quantity_ne_zero positive reduced, origin, inStart, same.trans sameTerms,
    UInt32.le_trans (reduce_quantity_le enough reduced) smaller⟩

/-- The trade that the loop makes next. -/
theorem LoopTrades.between_traded (trades : LoopTrades start new current)
    (opened : 0 < current.order.quantity)
    (picked : pickBest current.live current.order = some best) :
    ∃ resting ∈ start.live, (tradeOf current.nextTradeId current.order best
      (min current.order.quantity best.quantity)).Between start.order resting := by
  obtain ⟨member, accepted⟩ := pickBest_mem picked
  obtain ⟨positive, origin, inStart, same, smaller⟩ := trades.live best member
  refine ⟨origin, inStart, ?_, ?_, ?_, ?_⟩
  · rw [Order.terms_eq_iff.mp trades.order, Order.terms_eq_iff.mp same]
    rfl
  · rw [← Order.accepts_of_terms trades.order same]
    exact accepted
  · change min current.order.quantity best.quantity ≠ 0
    rcases Std.min_eq_or (a := current.order.quantity) (b := best.quantity) with first | second
    · rw [first]
      exact UInt32.pos_iff_ne_zero.mp opened
    · rw [second]
      exact positive
  · exact UInt32.le_trans Std.min_le_right smaller

/-- The live order that a trade hits is used up, unless the incoming order is. -/
theorem LoopTrades.gone_traded (trades : LoopTrades start new current)
    (unique : (start.live.map Order.id).Nodup)
    (picked : pickBest current.live current.order = some best) :
    (traded current best).order.quantity = 0 ∨
      ∀ order ∈ (traded current best).live, order.id ≠ best.id := by
  by_cases small : current.order.quantity ≤ best.quantity
  · have all : min current.order.quantity best.quantity = current.order.quantity := if_pos small
    exact Or.inl (by simp [traded, all])
  · have rest : min current.order.quantity best.quantity = best.quantity := if_neg small
    refine Or.inr ?_
    intro order member sameId
    obtain ⟨before, inLive, reduced, same⟩ := exists_before member
    have beforeId : before.id = best.id := by
      rw [← sameId, Order.terms_eq_iff.mp same]
    rw [trades.eq_best unique (pickBest_mem picked).1 inLive beforeId, rest] at reduced
    simp [reduce] at reduced

/-- The best order is at least as good as everything that stays acceptable. -/
theorem LoopTrades.behind_traded (trades : LoopTrades start new current)
    (picked : pickBest current.live current.order = some best)
    (member : order ∈ (traded current best).live) (accepted : start.order.accepts order = true) :
    start.order.prefers best.price order.price := by
  obtain ⟨before, inLive, _, same⟩ := exists_before member
  have acceptable : current.order.accepts before = true :=
    (Order.accepts_of_terms trades.order same.symm).trans accepted
  have least : current.order.rank best ≤ current.order.rank before :=
    List.le_of_mem_argmin (List.mem_filter.mpr ⟨inLive, acceptable⟩) picked
  have samePrice : order.price = before.price := by rw [Order.terms_eq_iff.mp same]
  rw [samePrice]
  apply Order.prefers_iff_rank.mpr
  rwa [Order.terms_eq_iff.mp trades.order] at least

theorem LoopTrades.restingId_traded (trades : LoopTrades start new current) (best : Order) :
    (tradeOf current.nextTradeId current.order best
      (min current.order.quantity best.quantity)).restingId start.order = best.id := by
  have sameSide : start.order.side = current.order.side := by
    rw [Order.terms_eq_iff.mp trades.order]
  rw [Trade.restingId, sameSide, ← Trade.restingId, Trade.restingId_tradeOf]

/-- The next trade moves its quantity from the open one to the traded one. -/
theorem LoopTrades.quantities_traded (trades : LoopTrades start new current) (best : Order) :
    ((new ++ [tradeOf current.nextTradeId current.order best
        (min current.order.quantity best.quantity)]).map (fun trade => trade.quantity.toNat)).sum +
      (traded current best).order.quantity.toNat = start.order.quantity.toNat := by
  have part : min current.order.quantity best.quantity ≤ current.order.quantity := Std.min_le_left
  have difference := UInt32.toNat_sub_of_le _ _ part
  have smaller := UInt32.le_iff_toNat_le.mp part
  have known := trades.quantities
  rw [List.map_append, List.sum_append, List.map_singleton, List.sum_singleton]
  change _ + (min current.order.quantity best.quantity).toNat +
    (current.order.quantity - min current.order.quantity best.quantity).toNat = _
  omega

/-- No live order is hit twice while the incoming order is open. -/
theorem LoopTrades.distinct_traded (trades : LoopTrades start new current)
    (nonzero : current.order.quantity ≠ 0) (member : best ∈ current.live) :
    ((new ++ [tradeOf current.nextTradeId current.order best
      (min current.order.quantity best.quantity)]).map
        (fun trade => trade.restingId start.order)).Nodup := by
  rw [List.map_append, List.map_singleton, trades.restingId_traded]
  refine List.nodup_append.mpr ⟨trades.distinct, List.nodup_singleton _, ?_⟩
  intro orderId old other last same
  obtain ⟨trade, inOld, rfl⟩ := List.mem_map.mp old
  rw [List.mem_singleton.mp last] at same
  exact (trades.gone trade inOld).resolve_left nonzero best member same.symm

/-- One more trade. -/
theorem LoopTrades.traded (trades : LoopTrades start new current)
    (unique : (start.live.map Order.id).Nodup) (opened : 0 < current.order.quantity)
    (picked : pickBest current.live current.order = some best) :
    LoopTrades start (new ++ [tradeOf current.nextTradeId current.order best
      (min current.order.quantity best.quantity)]) (traded current best) := by
  have member := (pickBest_mem picked).1
  have nonzero : current.order.quantity ≠ 0 := UInt32.pos_iff_ne_zero.mp opened
  refine {
    outTrades := ?_
    order := trades.order
    ids := (ids_sublist_of_terms (filterMap_reduce_terms _ _ _)).trans trades.ids
    live := trades.live_traded unique picked
    nextTradeId := ?_
    numbered := ?_
    quantities := trades.quantities_traded best
    between := ?_
    gone := ?_
    distinct := trades.distinct_traded nonzero member
    behind := ?_
    sorted := ?_ }
  · rw [Reference.traded, trades.outTrades, List.append_assoc]
  · rw [Reference.traded, trades.nextTradeId, List.length_append, List.length_singleton,
      UInt64.ofNat_add, UInt64.add_assoc]
    rfl
  · rw [List.length_append, List.length_singleton, List.range_succ, List.map_append,
      List.map_append, trades.numbered, List.map_singleton, List.map_singleton,
      ← trades.nextTradeId]
    rfl
  · intro trade inNew
    rcases List.mem_append.mp inNew with old | last
    · exact trades.between trade old
    · rw [List.mem_singleton.mp last]
      exact trades.between_traded opened picked
  · intro trade inNew
    rcases List.mem_append.mp inNew with old | last
    · refine Or.inr fun order inLive => ?_
      obtain ⟨before, inBefore, _, same⟩ := exists_before inLive
      have sameId : order.id = before.id := by rw [Order.terms_eq_iff.mp same]
      rw [sameId]
      exact (trades.gone trade old).resolve_left nonzero before inBefore
    · rw [List.mem_singleton.mp last, trades.restingId_traded]
      exact trades.gone_traded unique picked
  · intro trade inNew order inLive accepted
    rcases List.mem_append.mp inNew with old | last
    · obtain ⟨before, inBefore, _, same⟩ := exists_before inLive
      have samePrice : order.price = before.price := by rw [Order.terms_eq_iff.mp same]
      rw [samePrice]
      exact trades.behind trade old before inBefore
        ((Order.accepts_of_terms rfl same.symm).trans accepted)
    · rw [List.mem_singleton.mp last]
      exact trades.behind_traded picked inLive accepted
  · refine List.pairwise_append.mpr ⟨trades.sorted, List.pairwise_singleton _ _, ?_⟩
    intro trade old last isLast
    rw [List.mem_singleton.mp isLast]
    exact trades.behind trade old best member
      ((Order.accepts_of_terms trades.order rfl).symm.trans (pickBest_mem picked).2)

end Step

/-- The trades that the loop appends. -/
theorem exists_loopTrades (fuel : Nat) {state : MatchState}
    (unique : (state.live.map Order.id).Nodup)
    (positive : ∀ order ∈ state.live, order.quantity ≠ 0) :
    ∃ new, LoopTrades state new (matchLoop fuel state) := by
  refine matchLoop_induction (P := fun current => ∃ new, LoopTrades state new current) ?_ fuel
    ⟨[], loopTrades_start positive⟩
  rintro current best ⟨new, trades⟩ opened picked
  exact ⟨_, trades.traded unique opened picked⟩

theorem Sound.exists_loopTrades (sound : engine.Sound) (order : Order) (outTrades : List Trade) :
    ∃ new, LoopTrades (engine.matchStart order outTrades) new (engine.matchEnd order outTrades) :=
  Reference.exists_loopTrades _ sound.ids
    (fun live member => (sound.restable live member).quantity)

/-- The counting goes on behind the trades of a run. -/
theorem numbered_append {trades new : List Trade} {first next : UInt64}
    (before : trades.map Trade.tradeId =
      (List.range trades.length).map (fun i => first + UInt64.ofNat i))
    (following : next = first + UInt64.ofNat trades.length)
    (after : new.map Trade.tradeId =
      (List.range new.length).map (fun i => next + UInt64.ofNat i)) :
    (trades ++ new).map Trade.tradeId =
      (List.range (trades ++ new).length).map (fun i => first + UInt64.ofNat i) := by
  rw [List.map_append, before, after, following, List.length_append, List.range_add,
    List.map_append, List.map_map]
  simp only [Function.comp_def, UInt64.ofNat_add, UInt64.add_assoc]

/-- Numbers that stay below `2^64` do not wrap. -/
theorem toNat_numbered {first : UInt64} {n i : Nat} (room : first.toNat + n ≤ 2 ^ 64)
    (below : i < n) : (first + UInt64.ofNat i).toNat = first.toNat + i := by
  have small : i < 2 ^ 64 := by omega
  rw [UInt64.toNat_add, UInt64.toNat_ofNat_of_lt' small, Nat.mod_eq_of_lt (by omega)]

/-- Numbers that do not run over grow. -/
theorem numbered_increasing {first : UInt64} {n : Nat} (room : first.toNat + n ≤ 2 ^ 64) :
    ((List.range n).map (fun i => first + UInt64.ofNat i)).Pairwise (· < ·) := by
  rw [List.pairwise_map]
  refine List.pairwise_lt_range.imp_of_mem (fun {i j} inI inJ less => ?_)
  rw [UInt64.lt_iff_toNat_lt, toNat_numbered room (List.mem_range.mp inI),
    toNat_numbered room (List.mem_range.mp inJ)]
  omega

/-- Every command appends its trades and goes on counting them. -/
theorem Step.numbered (sound : engine.Sound) {outTrades : List Trade} {command : Command}
    {shortfall : Bool} {response : Response}
    (step : engine.Step outTrades command shortfall response) :
    ∃ new, response.outTrades = outTrades ++ new ∧
      new.map Trade.tradeId =
        (List.range new.length).map (fun i => engine.nextTradeId + UInt64.ofNat i) ∧
      response.engine.nextTradeId = engine.nextTradeId + UInt64.ofNat new.length := by
  cases step with
  | rejected _ _ => exact ⟨[], by simp, rfl, by simp⟩
  | missing _ => exact ⟨[], by simp, rfl, by simp⟩
  | canceled _ => exact ⟨[], by simp, rfl, by simp⟩
  | @accepted order _ _ =>
      obtain ⟨new, trades⟩ := sound.exists_loopTrades order outTrades
      exact ⟨new, trades.outTrades, trades.numbered, trades.nextTradeId⟩

/-- A trade is never empty, so no order trades more often than its quantity. -/
theorem LoopTrades.length_add_le {start current : MatchState} {new : List Trade}
    (loop : LoopTrades start new current) :
    new.length + current.order.quantity.toNat ≤ start.order.quantity.toNat := by
  have positive : ∀ quantity ∈ new.map (fun trade => trade.quantity.toNat), 1 ≤ quantity := by
    intro quantity member
    obtain ⟨trade, inNew, rfl⟩ := List.mem_map.mp member
    obtain ⟨_, _, between⟩ := loop.between trade inNew
    exact UInt32.pos_iff_ne_zero.mpr between.positive
  have length := List.length_le_sum_of_one_le _ positive
  rw [List.length_map] at length
  have total := loop.quantities
  omega

theorem LoopTrades.length_lt {start current : MatchState} {new : List Trade}
    (loop : LoopTrades start new current) : new.length < 2 ^ 32 := by
  have length := loop.length_add_le
  have bound := start.order.quantity.toNat_lt
  omega

/-- The report says how many trades the command has appended. -/
theorem Step.tradeCount (sound : engine.Sound) {outTrades : List Trade} {command : Command}
    {shortfall : Bool} {response : Response}
    (step : engine.Step outTrades command shortfall response) :
    response.outTrades.length = outTrades.length + response.report.tradeCount.toNat := by
  cases step with
  | rejected _ _ => rfl
  | missing _ => rfl
  | canceled _ => rfl
  | @accepted order _ _ =>
      obtain ⟨new, loop⟩ := sound.exists_loopTrades order outTrades
      have appended : (engine.matchEnd order outTrades).outTrades.length =
          outTrades.length + new.length := by
        rw [loop.outTrades, List.length_append]
        rfl
      change (engine.matchEnd order outTrades).outTrades.length = outTrades.length +
        (UInt32.ofNat ((engine.matchEnd order outTrades).outTrades.length -
          outTrades.length)).toNat
      rw [appended, Nat.add_sub_cancel_left, UInt32.toNat_ofNat_of_lt' loop.length_lt]

end Reference

end Lob
