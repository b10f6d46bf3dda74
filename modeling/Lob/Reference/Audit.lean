import Lob.Reference.History
import Lob.Reference.Trades

/-!
# The audit trail of trades

`Audited` explains all trades of a run by its history. Trade ids count the trades. Every
trade settles two accepted orders: the later one came in with the sequence of the trade,
and the earlier one was resting and gave the price. No two orders trade twice: a trade
uses up the resting party or ends the trading of the incoming one.
-/

namespace Lob

/-- The trade settles `incoming`, accepted under `sequence`, against the earlier `resting`. -/
structure Trade.Settles (trade : Trade) (incoming resting : Order) (sequence : UInt64) :
    Prop where
  distinct : incoming.id ≠ resting.id
  sequence : trade.sequence = sequence
  limit : resting.type = .limit
  price : trade.price = resting.price
  sides : incoming.side = .buy ∧ resting.side = .sell ∨ incoming.side = .sell ∧ resting.side = .buy
  buyer : trade.buyOrderId = if incoming.side = .buy then incoming.id else resting.id
  seller : trade.sellOrderId = if incoming.side = .buy then resting.id else incoming.id
  acceptable : incoming.type = .limit →
    if incoming.side = .buy then trade.price ≤ incoming.price else incoming.price ≤ trade.price

/-- Two events of the history, the first one earlier, accepted the parties of the trade. -/
def Trade.Explained (trade : Trade) (events : List Event) : Prop :=
  ∃ (i j : Nat) (earlier later : Event) (resting incoming : Order), i < j ∧
    events[i]? = some earlier ∧ earlier.acceptedOrder = some resting ∧
    events[j]? = some later ∧ later.acceptedOrder = some incoming ∧
    trade.Settles incoming resting later.report.sequence

def Trade.pair (trade : Trade) : UInt64 × UInt64 := (trade.buyOrderId, trade.sellOrderId)

theorem Trade.Explained.concat {trade : Trade} {events : List Event}
    (explained : trade.Explained events) (event : Event) :
    trade.Explained (events ++ [event]) := by
  obtain ⟨i, j, earlier, later, resting, incoming, before, atI, first, atJ, second, settles⟩ :=
    explained
  obtain ⟨inside, _⟩ := List.getElem?_eq_some_iff.mp atI
  obtain ⟨inside', _⟩ := List.getElem?_eq_some_iff.mp atJ
  refine ⟨i, j, earlier, later, resting, incoming, before, ?_, first, ?_, second, settles⟩
  · rwa [List.getElem?_append_left inside]
  · rwa [List.getElem?_append_left inside']

namespace Reference

/-- The history explains the trades. -/
structure Audited (engine : Reference) (events : List Event) (trades : List Trade) : Prop where
  count : trades.length ≤ events.length * 2 ^ 32
  nextTradeId : engine.nextTradeId = 1 + UInt64.ofNat trades.length
  numbered : trades.map Trade.tradeId =
    (List.range trades.length).map (fun i => 1 + UInt64.ofNat i)
  explained : ∀ trade ∈ trades, trade.Explained events
  pairs : (trades.map Trade.pair).Nodup

theorem audited_fresh (limits : RiskLimits) : (fresh limits).Audited [] [] :=
  ⟨Nat.zero_le _, rfl, rfl, fun _ member => absurd member List.not_mem_nil, List.nodup_nil⟩

variable {engine : Reference} {events : List Event} {trades new : List Trade} {order : Order}
  {shortfall : Bool}

/-- No command trades more often than there are live orders. -/
theorem LoopTrades.length_le {start current : MatchState}
    (loop : LoopTrades start new current) : new.length ≤ start.live.length := by
  have sub : new.map (fun trade => trade.restingId start.order) ⊆ start.live.map Order.id := by
    intro orderId member
    obtain ⟨trade, inNew, rfl⟩ := List.mem_map.mp member
    obtain ⟨resting, inLive, between⟩ := loop.between trade inNew
    rw [between.restingId]
    exact List.mem_map_of_mem inLive
  simpa using (loop.distinct.subperm sub).length_le

/-- A trade between an order that passed the reject exits and a live order. -/
theorem settles_of_between (sound : engine.Sound)
    (passed : engine.rejectReason order shortfall = .none) {trade : Trade} {resting origin : Order}
    (inLive : resting ∈ engine.live) (stands : resting.StandsFor origin)
    (between : trade.Between { order with sequence := engine.sequence + 1 } resting) :
    trade.Settles order origin (engine.sequence + 1) := by
  have facts := passed_of_rejectReason passed
  have restable := sound.restable resting inLive
  have accepted := between.accepted
  have sameId : resting.id = origin.id := by rw [stands]
  have sameSide : resting.side = origin.side := by rw [stands]
  have samePrice : resting.price = origin.price := by rw [stands]
  have sameType : resting.type = origin.type := by rw [stands]
  simp only [Order.accepts, Bool.and_eq_true, decide_eq_true_eq, Order.opposite, Order.crosses,
    Bool.or_eq_true] at accepted
  obtain ⟨opposite, crosses⟩ := accepted
  replace opposite := of_decide_eq_true opposite
  refine ⟨?_, ?_, ?_, ?_, ?_, ?_, ?_, ?_⟩
  · intro same
    exact facts.new (same ▸ sameId ▸ sound.seen resting inLive)
  · rw [between.terms]
    rfl
  · rw [← sameType]
    exact restable.type
  · rw [between.terms, ← samePrice]
    rfl
  · rw [← sameSide]
    rcases isValidSide_iff.mp facts.valid.side with buy | sell
    · exact Or.inl ⟨buy, by rw [opposite, if_pos buy]⟩
    · have notBuy : ¬order.side = .buy := fun buy => Side.buy_ne_sell (buy.symm.trans sell)
      exact Or.inr ⟨sell, by rw [opposite, if_neg notBuy]⟩
  · rw [between.terms, ← sameId]
    rfl
  · rw [between.terms, ← sameId]
    rfl
  · intro limit
    have notMarket : ¬order.type = .market := by
      rw [limit]
      exact OrderType.limit_ne_market
    have price : trade.price = resting.price := by rw [between.terms]; rfl
    rw [price]
    by_cases buy : order.side = .buy
    · simpa [buy, notMarket] using crosses
    · simpa [buy, notMarket] using crosses

/-- The trades of an accepted order are explained by its event and by earlier ones. -/
theorem explained_of_loop (sound : engine.Sound) (recorded : engine.Recorded events trades)
    (passed : engine.rejectReason order shortfall = .none)
    (loop : LoopTrades (engine.matchStart order trades) new (engine.matchEnd order trades)) :
    ∀ trade ∈ new, trade.Explained
      (events ++ [⟨.newOrder order, (engine.execute order trades).report⟩]) := by
  intro trade member
  obtain ⟨resting, inLive, between⟩ := loop.between trade member
  obtain ⟨origin, inEvents, stands⟩ := recorded.origin resting inLive
  obtain ⟨earlier, inHistory, first⟩ := mem_acceptedOrders.mp inEvents
  obtain ⟨i, inside, atI⟩ := List.mem_iff_getElem.mp inHistory
  refine ⟨i, events.length, earlier, _, origin, order, inside, ?_, first,
    List.getElem?_concat_length, acceptedOrder_execute engine order trades,
    settles_of_between sound passed inLive stands between⟩
  rw [List.getElem?_append_left inside, List.getElem?_eq_getElem inside, atI]

/-- No pair of ids comes back: the incoming id is new, and the resting ids differ. -/
theorem pairs_of_loop (recorded : engine.Recorded events trades)
    (passed : engine.rejectReason order shortfall = .none) (pairs : (trades.map Trade.pair).Nodup)
    (loop : LoopTrades (engine.matchStart order trades) new (engine.matchEnd order trades)) :
    ((trades ++ new).map Trade.pair).Nodup := by
  have fresh := recorded.not_mem_acceptedIds (passed_of_rejectReason passed)
  rw [List.map_append, List.nodup_append]
  refine ⟨pairs, ?_, ?_⟩
  · refine List.Nodup.of_map
      (fun pair : UInt64 × UInt64 => if order.side = .buy then pair.2 else pair.1) ?_
    rw [List.map_map]
    exact loop.distinct
  · intro pair old pair' recent same
    obtain ⟨trade, inTrades, rfl⟩ := List.mem_map.mp old
    obtain ⟨trade', inNew, rfl⟩ := List.mem_map.mp recent
    obtain ⟨resting, _, between⟩ := loop.between trade' inNew
    -- an old trade would name the id that the order brings in
    have named : trade.buyOrderId = order.id ∨ trade.sellOrderId = order.id := by
      obtain ⟨sameBuyer, sameSeller⟩ := Prod.mk.inj same
      rw [between.terms] at sameBuyer sameSeller
      by_cases buy : order.side = .buy
      · exact Or.inl (by rw [sameBuyer]; exact if_pos buy)
      · exact Or.inr (by rw [sameSeller]; exact if_neg buy)
    exact fresh (recorded.named trade inTrades order.id named)

theorem Audited.execute (audited : engine.Audited events trades) (sound : engine.Sound)
    (recorded : engine.Recorded events trades)
    (passed : engine.rejectReason order shortfall = .none) (few : engine.live.length ≤ 2 ^ 32)
    (loop : LoopTrades (engine.matchStart order trades) new (engine.matchEnd order trades)) :
    (engine.execute order trades).engine.Audited
      (events ++ [⟨.newOrder order, (engine.execute order trades).report⟩]) (trades ++ new) := by
  have next := loop.nextTradeId
  refine ⟨?_, ?_, ?_, ?_, ?_⟩
  · have count := audited.count
    have length : new.length ≤ engine.live.length := loop.length_le
    rw [List.length_append, List.length_append, List.length_singleton, Nat.add_mul]
    omega
  · rw [List.length_append, UInt64.ofNat_add, ← UInt64.add_assoc, ← audited.nextTradeId]
    exact next
  · exact numbered_append audited.numbered audited.nextTradeId loop.numbered
  · intro trade member
    rcases List.mem_append.mp member with old | recent
    · exact (audited.explained trade old).concat _
    · exact explained_of_loop sound recorded passed loop trade recent
  · exact pairs_of_loop recorded passed audited.pairs loop

theorem Audited.step (audited : engine.Audited events trades) (sound : engine.Sound)
    (recorded : engine.Recorded events trades) (few : engine.live.length ≤ 2 ^ 32)
    {command : Command} {response : Response}
    (step : engine.Step trades command shortfall response) :
    response.engine.Audited (events ++ [⟨command, response.report⟩]) response.outTrades := by
  -- a command that trades nothing leaves the trades alone
  have kept : ∀ (engine' : Reference) (event : Event), engine'.nextTradeId = engine.nextTradeId →
      engine'.Audited (events ++ [event]) trades := by
    intro engine' event same
    refine ⟨?_, same.trans audited.nextTradeId, audited.numbered,
      fun trade member => (audited.explained trade member).concat event, audited.pairs⟩
    rw [List.length_append, Nat.add_mul]
    exact audited.count.trans (Nat.le_add_right _ _)
  cases step with
  | rejected _ _ => exact kept _ _ rfl
  | missing _ => exact kept _ _ rfl
  | canceled _ => exact kept _ _ rfl
  | @accepted incoming _ passed =>
      obtain ⟨new, loop⟩ := sound.exists_loopTrades incoming trades
      have appended : (engine.execute incoming trades).outTrades = trades ++ new := loop.outTrades
      rw [appended]
      exact audited.execute sound recorded passed few loop

end Reference

end Lob
