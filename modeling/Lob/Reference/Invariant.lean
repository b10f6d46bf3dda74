import Lob.Reference.Match

/-!
# What every command of the reference engine preserves

`Reference.Step` lists everything one command can do, whatever answer the preflight
question got. Invariants are then proved by one case per kind of step. Trading leaves
the terms of a live order alone, that is, everything but its quantity, so the terms of
the live list only ever lose entries while the matching loop runs.
-/

namespace Lob

/-- What stays fixed about an order while it trades. -/
def Order.terms (order : Order) : Order := { order with quantity := 0 }

theorem Order.terms_eq_iff {order order' : Order} :
    order.terms = order'.terms ↔ order = { order' with quantity := order.quantity } := by
  cases order
  cases order'
  simp [Order.terms]

theorem Order.accepts_of_terms {incoming incoming' live live' : Order}
    (sameIncoming : incoming.terms = incoming'.terms) (sameLive : live.terms = live'.terms) :
    incoming.accepts live = incoming'.accepts live' := by
  rw [Order.terms_eq_iff.mp sameIncoming, Order.terms_eq_iff.mp sameLive]
  rfl

namespace Reference

/-! ### The terms of the live orders -/

theorem filterMap_reduce_terms (live : List Order) (orderId : UInt64) (traded : UInt32) :
    ((live.filterMap (reduce orderId traded)).map Order.terms).Sublist
      (live.map Order.terms) := by
  induction live with
  | nil => exact .slnil
  | cons order live ih =>
      cases reduced : reduce orderId traded order with
      | none =>
          rw [List.filterMap_cons_none reduced]
          exact ih.cons _
      | some order' =>
          rw [List.filterMap_cons_some reduced, List.map_cons, List.map_cons,
            Order.terms_eq_iff.mpr (reduce_eq_some reduced)]
          exact ih.cons_cons _

theorem matchLoop_terms (fuel : Nat) (state : MatchState) :
    ((matchLoop fuel state).live.map Order.terms).Sublist (state.live.map Order.terms) := by
  refine matchLoop_induction
    (P := fun current => (current.live.map Order.terms).Sublist (state.live.map Order.terms))
    ?_ fuel (List.Sublist.refl _)
  intro current best sub _ _
  exact (filterMap_reduce_terms _ _ _).trans sub

/-- A fill leaves no live order with quantity zero. -/
theorem reduce_quantity_ne_zero {orderId : UInt64} {traded : UInt32} {order order' : Order}
    (positive : order.quantity ≠ 0) (reduced : reduce orderId traded order = some order') :
    order'.quantity ≠ 0 := by
  unfold reduce at reduced
  split at reduced
  · split at reduced
    · contradiction
    · rename_i different
      rw [← Option.some.inj reduced]
      change order.quantity - traded ≠ 0
      rwa [Ne, UInt32.sub_eq_iff_eq_add, UInt32.zero_add]
  · rwa [← Option.some.inj reduced]

theorem matchLoop_quantity_ne_zero (fuel : Nat) {state : MatchState}
    (positive : ∀ order ∈ state.live, order.quantity ≠ 0) :
    ∀ order ∈ (matchLoop fuel state).live, order.quantity ≠ 0 := by
  refine matchLoop_induction (P := fun current => ∀ order ∈ current.live, order.quantity ≠ 0)
    ?_ fuel positive
  intro current best known _ _ order member
  obtain ⟨before, inBefore, reduced⟩ := List.mem_filterMap.mp member
  exact reduce_quantity_ne_zero (known before inBefore) reduced

section MatchEnd

variable (engine : Reference) (order : Order) (outTrades : List Trade)

theorem matchEnd_terms :
    ((engine.matchEnd order outTrades).live.map Order.terms).Sublist
      (engine.live.map Order.terms) := matchLoop_terms _ _

theorem matchEnd_order :
    (engine.matchEnd order outTrades).order.terms =
      { order with sequence := engine.sequence + 1 }.terms :=
  Order.terms_eq_iff.mpr (matchLoop_order _ _)

theorem matchEnd_order_id : (engine.matchEnd order outTrades).order.id = order.id := by
  rw [Order.terms_eq_iff.mp (engine.matchEnd_order order outTrades)]

/-- The loop leaves nothing that the unfilled remainder could still trade with. -/
theorem matchEnd_done :
    (engine.matchEnd order outTrades).order.quantity = 0 ∨
      ∀ live ∈ (engine.matchEnd order outTrades).live, order.accepts live = false := by
  have stop : matchStep (engine.matchEnd order outTrades) = none :=
    matchStep_matchLoop (Nat.le_refl _)
  refine (matchStep_eq_none_iff.mp stop).imp_right ?_
  intro none live member
  have refused := List.filter_eq_nil_iff.mp none live member
  rw [← Bool.not_eq_true]
  intro accepted
  apply refused
  exact (Order.accepts_of_terms (engine.matchEnd_order order outTrades) rfl).trans accepted

/-- The state after the trades of an accepted order, before its remainder is appended. -/
def afterMatch : Reference where
  live := (engine.matchEnd order outTrades).live
  risk := engine.risk
  seenOrderIds := insert order.id engine.seenOrderIds
  sequence := engine.sequence + 1
  nextTradeId := (engine.matchEnd order outTrades).nextTradeId

theorem execute_engine :
    (engine.execute order outTrades).engine = engine.afterMatch order outTrades ∨
      (order.mayRest = true ∧ (engine.matchEnd order outTrades).order.quantity ≠ 0 ∧
        (engine.execute order outTrades).engine =
          { engine.afterMatch order outTrades with
            live := (engine.matchEnd order outTrades).live ++
              [(engine.matchEnd order outTrades).order] }) := by
  simp only [execute]
  split
  · rename_i rests
    exact Or.inr ⟨rests.2, UInt32.pos_iff_ne_zero.mp rests.1, rfl⟩
  · exact Or.inl rfl

variable {engine order outTrades} in
theorem execute_live_cases {live : Order}
    (member : live ∈ (engine.execute order outTrades).engine.live) :
    live ∈ (engine.matchEnd order outTrades).live ∨
      live = (engine.matchEnd order outTrades).order := by
  rcases engine.execute_engine order outTrades with same | ⟨_, _, rested⟩
  · exact Or.inl (by rwa [same] at member)
  · rw [rested] at member
    exact (List.mem_append.mp member).imp_right List.mem_singleton.mp

end MatchEnd

/-! ### Everything that one command can do -/

inductive Step (engine : Reference) (outTrades : List Trade) : Command → Bool → Response → Prop
  | rejected {order : Order} {shortfall : Bool} {reason : RejectReason}
      (refused : engine.rejectReason order shortfall = reason) (failed : reason ≠ .none) :
      Step engine outTrades (.newOrder order) shortfall
        ⟨{ engine with sequence := engine.sequence + 1 }, engine.rejectedReport order reason,
          outTrades⟩
  | accepted {order : Order} {shortfall : Bool}
      (passed : engine.rejectReason order shortfall = .none) :
      Step engine outTrades (.newOrder order) shortfall (engine.execute order outTrades)
  | missing {orderId : UInt64} {shortfall : Bool} (absent : engine.cancelTarget orderId = none) :
      Step engine outTrades (.cancel orderId) shortfall
        ⟨{ engine with sequence := engine.sequence + 1 },
          { orderId := orderId
            sequence := engine.sequence + 1
            command := .cancelOrder
            status := .rejected
            rejectReason := if orderId = 0 then .invalidOrderId else .orderNotFound },
          outTrades⟩
  | canceled {orderId : UInt64} {shortfall : Bool} {order : Order}
      (found : engine.cancelTarget orderId = some order) :
      Step engine outTrades (.cancel orderId) shortfall
        ⟨{ engine with
            sequence := engine.sequence + 1
            live := engine.live.filter (fun order => decide (order.id ≠ orderId)) },
          { orderId := orderId
            sequence := engine.sequence + 1
            command := .cancelOrder
            status := .canceled
            rejectReason := .none
            requestedQuantity := order.quantity
            remainingQuantity := 0 },
          outTrades⟩

theorem applyWith_step (engine : Reference) (command : Command) (shortfall : Bool)
    (outTrades : List Trade) :
    engine.Step outTrades command shortfall (engine.applyWith command shortfall outTrades) := by
  cases command with
  | newOrder order =>
      simp only [applyWith, processOrder]
      split
      · rename_i passed
        exact .accepted passed
      · rename_i failed
        exact .rejected rfl failed
  | cancel orderId =>
      simp only [applyWith, cancel]
      split
      · rename_i absent
        exact .missing absent
      · rename_i order found
        exact .canceled found

/-- What the reject exits have excluded for an accepted order. -/
structure Passed (engine : Reference) (order : Order) (shortfall : Bool) : Prop where
  valid : order.StaticallyValid
  new : order.id ∉ engine.seenOrderIds
  fillable : order.timeInForce = .fok → shortfall = false

theorem passed_of_rejectReason {engine : Reference} {order : Order} {shortfall : Bool}
    (passed : engine.rejectReason order shortfall = .none) : engine.Passed order shortfall := by
  unfold rejectReason at passed
  split at passed
  · contradiction
  · rename_i valid
    split at passed
    · contradiction
    · rename_i new
      refine ⟨staticallyValid_of_validateStatic (not_not.mp valid), new, ?_⟩
      intro fok
      by_contra short
      simp only [fok, Bool.not_eq_false] at short passed
      simp only [short, and_self, if_true] at passed
      split at passed
      · contradiction
      · split at passed <;> contradiction

theorem mem_live_of_cancelTarget {engine : Reference} {orderId : UInt64} {order : Order}
    (found : engine.cancelTarget orderId = some order) :
    orderId ≠ 0 ∧ order ∈ engine.live ∧ order.id = orderId := by
  unfold cancelTarget at found
  split at found
  · contradiction
  · rename_i nonzero
    exact ⟨nonzero, List.mem_of_find?_eq_some found, by simpa using List.find?_some found⟩

end Reference

/-! ### The live list -/

/-- An order as it may stand in the live list. -/
structure Order.Restable (order : Order) : Prop where
  id : order.id ≠ 0
  side : order.side = .buy ∨ order.side = .sell
  type : order.type = .limit
  quantity : order.quantity ≠ 0
  price : 0 < order.price

theorem Order.Restable.of_terms {order order' : Order} (restable : order.Restable)
    (same : order'.terms = order.terms) (positive : order'.quantity ≠ 0) : order'.Restable := by
  rw [Order.terms_eq_iff.mp same]
  exact ⟨restable.id, restable.side, restable.type, positive, restable.price⟩

namespace Reference

variable {shortfall : Bool} {command : Command} {response : Response} {live live' : List Order}

/-- The bids are below the asks. -/
def Uncrossed (live : List Order) : Prop :=
  ∀ bid ∈ live, bid.side = .buy → ∀ ask ∈ live, ask.side = .sell → bid.price < ask.price

/-- The part of well-formedness that no number of commands can break. -/
structure Sound (engine : Reference) : Prop where
  restable : ∀ order ∈ engine.live, order.Restable
  ids : (engine.live.map Order.id).Nodup
  seen : ∀ order ∈ engine.live, order.id ∈ engine.seenOrderIds
  uncrossed : Uncrossed engine.live

theorem sound_start (risk : RiskManager) : ({ risk := risk } : Reference).Sound where
  restable _ member := absurd member List.not_mem_nil
  ids := .nil
  seen _ member := absurd member List.not_mem_nil
  uncrossed _ member := absurd member List.not_mem_nil

theorem sound_fresh (limits : RiskLimits) : (fresh limits).Sound := sound_start { limits }

variable {engine : Reference}

theorem exists_origin (sub : (live'.map Order.terms).Sublist (live.map Order.terms)) {order : Order}
    (member : order ∈ live') : ∃ origin ∈ live, order.terms = origin.terms := by
  obtain ⟨origin, inLive, same⟩ := List.mem_map.mp (sub.subset (List.mem_map_of_mem member))
  exact ⟨origin, inLive, same.symm⟩

theorem Uncrossed.of_terms (uncrossed : Uncrossed live)
    (sub : (live'.map Order.terms).Sublist (live.map Order.terms)) : Uncrossed live' := by
  intro bid inBids bidSide ask inAsks askSide
  obtain ⟨bid', inLive, same⟩ := exists_origin sub inBids
  obtain ⟨ask', inLive', same'⟩ := exists_origin sub inAsks
  rw [Order.terms_eq_iff.mp same] at bidSide ⊢
  rw [Order.terms_eq_iff.mp same'] at askSide ⊢
  exact uncrossed bid' inLive bidSide ask' inLive' askSide

theorem ids_sublist_of_terms (sub : (live'.map Order.terms).Sublist (live.map Order.terms)) :
    (live'.map Order.id).Sublist (live.map Order.id) := by
  simpa only [List.map_map, Function.comp_def, Order.terms] using sub.map Order.id

/-- Soundness survives when the live list loses entries or quantity. -/
theorem Sound.of_terms (sound : engine.Sound) {engine' : Reference}
    (sub : (engine'.live.map Order.terms).Sublist (engine.live.map Order.terms))
    (positive : ∀ order ∈ engine'.live, order.quantity ≠ 0)
    (grows : engine.seenOrderIds ⊆ engine'.seenOrderIds) : engine'.Sound where
  restable order member := by
    obtain ⟨origin, inLive, same⟩ := exists_origin sub member
    exact (sound.restable origin inLive).of_terms same (positive order member)
  ids := sound.ids.sublist (ids_sublist_of_terms sub)
  seen order member := by
    obtain ⟨origin, inLive, same⟩ := exists_origin sub member
    have sameId : order.id = origin.id := by rw [Order.terms_eq_iff.mp same]
    exact grows (sameId ▸ sound.seen origin inLive)
  uncrossed := sound.uncrossed.of_terms sub

/-- A remainder that nothing is acceptable to may join the live list. -/
theorem Sound.append (sound : engine.Sound) {order : Order} (restable : order.Restable)
    (new : ∀ live ∈ engine.live, live.id ≠ order.id) (known : order.id ∈ engine.seenOrderIds)
    (refused : ∀ live ∈ engine.live, order.accepts live = false) :
    { engine with live := engine.live ++ [order] }.Sound := by
  refine ⟨?_, ?_, ?_, ?_⟩
  · intro live member
    rcases List.mem_append.mp member with old | last
    · exact sound.restable live old
    · rwa [List.mem_singleton.mp last]
  · rw [List.map_append, List.nodup_append]
    refine ⟨sound.ids, List.nodup_singleton _, ?_⟩
    intro orderId old other last same
    obtain ⟨live, member, rfl⟩ := List.mem_map.mp old
    rw [List.mem_singleton.mp last] at same
    exact new live member same
  · intro live member
    rcases List.mem_append.mp member with old | last
    · exact sound.seen live old
    · rwa [List.mem_singleton.mp last]
  · have notMarket : ¬order.type = .market := by
      rw [restable.type]
      exact OrderType.limit_ne_market
    intro bid bidMember bidSide ask askMember askSide
    rcases List.mem_append.mp bidMember with oldBid | newBid <;>
      rcases List.mem_append.mp askMember with oldAsk | newAsk
    · exact sound.uncrossed bid oldBid bidSide ask oldAsk askSide
    · obtain rfl := List.mem_singleton.mp newAsk
      have notBuy : ¬ask.side = .buy := fun buy => Side.buy_ne_sell (buy.symm.trans askSide)
      have price := refused bid oldBid
      simpa [Order.accepts, Order.opposite, Order.crosses, notMarket, notBuy, bidSide] using price
    · obtain rfl := List.mem_singleton.mp newBid
      have price := refused ask oldAsk
      simpa [Order.accepts, Order.opposite, Order.crosses, notMarket, askSide, bidSide] using price
    · have same := (List.mem_singleton.mp newBid).trans (List.mem_singleton.mp newAsk).symm
      exact absurd (bidSide.symm.trans (same ▸ askSide)) Side.buy_ne_sell

theorem Sound.afterMatch (sound : engine.Sound) (order : Order) (outTrades : List Trade) :
    (engine.afterMatch order outTrades).Sound := by
  refine sound.of_terms (engine.matchEnd_terms order outTrades) ?_ (Finset.subset_insert _ _)
  exact matchLoop_quantity_ne_zero _ (fun live member => (sound.restable live member).quantity)

/-- The remainder of an accepted order that may rest. -/
theorem restable_matchEnd {order : Order} (outTrades : List Trade)
    (passed : engine.Passed order shortfall) (mayRest : order.mayRest = true)
    (positive : (engine.matchEnd order outTrades).order.quantity ≠ 0) :
    (engine.matchEnd order outTrades).order.Restable := by
  have limit : order.type = .limit := (Order.mayRest_iff.mp mayRest).1
  rw [Order.terms_eq_iff.mp (engine.matchEnd_order order outTrades)]
  exact ⟨passed.valid.id, isValidSide_iff.mp passed.valid.side, limit, positive,
    passed.valid.price limit⟩

theorem Sound.new_of_passed (sound : engine.Sound) {order : Order}
    (passed : engine.Passed order shortfall) (outTrades : List Trade) :
    ∀ live ∈ (engine.matchEnd order outTrades).live, live.id ≠ order.id := by
  intro live member sameId
  obtain ⟨origin, inLive, same⟩ := exists_origin (engine.matchEnd_terms order outTrades) member
  rw [Order.terms_eq_iff.mp same] at sameId
  exact passed.new (sameId ▸ sound.seen origin inLive)

theorem Sound.execute (sound : engine.Sound) {order : Order}
    (passed : engine.Passed order shortfall) (outTrades : List Trade) :
    (engine.execute order outTrades).engine.Sound := by
  have after := sound.afterMatch order outTrades
  rcases engine.execute_engine order outTrades with same | ⟨mayRest, positive, rested⟩
  · rwa [same]
  · rw [rested]
    refine after.append (restable_matchEnd outTrades passed mayRest positive) ?_ ?_ ?_
    · rw [matchEnd_order_id]
      exact sound.new_of_passed passed outTrades
    · rw [matchEnd_order_id]
      exact Finset.mem_insert_self _ _
    · intro live member
      rw [Order.accepts_of_terms (engine.matchEnd_order order outTrades) rfl]
      exact (engine.matchEnd_done order outTrades).resolve_left positive live member

theorem Sound.step (sound : engine.Sound) {outTrades : List Trade}
    (step : engine.Step outTrades command shortfall response) : response.engine.Sound := by
  cases step with
  | rejected _ _ => exact ⟨sound.restable, sound.ids, sound.seen, sound.uncrossed⟩
  | accepted passed => exact sound.execute (passed_of_rejectReason passed) outTrades
  | missing _ => exact ⟨sound.restable, sound.ids, sound.seen, sound.uncrossed⟩
  | canceled _ =>
      exact sound.of_terms (List.filter_sublist.map _)
        (fun order member => (sound.restable order (List.mem_filter.mp member).1).quantity)
        (Finset.Subset.refl _)

/-! ### Arrival sequences and the number of live orders -/

/-- The facts that hold as long as the event sequence has not wrapped: the live orders
are stamped in arrival order, and there are no more of them than events. -/
structure Stamped (engine : Reference) : Prop where
  increasing : engine.live.Pairwise (fun a b => a.sequence < b.sequence)
  bounded : ∀ order ∈ engine.live, order.sequence ≤ engine.sequence
  length : engine.live.length ≤ engine.sequence.toNat

theorem stamped_fresh (limits : RiskLimits) : (fresh limits).Stamped where
  increasing := .nil
  bounded _ member := absurd member List.not_mem_nil
  length := Nat.le_refl _

theorem Step.sequence {outTrades : List Trade}
    (step : engine.Step outTrades command shortfall response) :
    response.engine.sequence = engine.sequence + 1 := by
  cases step <;> rfl

theorem Step.risk {outTrades : List Trade}
    (step : engine.Step outTrades command shortfall response) :
    response.engine.risk = engine.risk := by
  cases step <;> rfl

theorem toNat_sequence_add_one {sequence : UInt64} (room : sequence.toNat + 1 < 2 ^ 64) :
    (sequence + 1).toNat = sequence.toNat + 1 := by
  rw [UInt64.toNat_add]
  exact Nat.mod_eq_of_lt room

theorem Stamped.of_terms (stamped : engine.Stamped) {engine' : Reference}
    (sub : (engine'.live.map Order.terms).Sublist (engine.live.map Order.terms))
    (next : engine'.sequence = engine.sequence + 1) (room : engine.sequence.toNat + 1 < 2 ^ 64) :
    engine'.Stamped := by
  have advance := toNat_sequence_add_one room
  refine ⟨?_, ?_, ?_⟩
  · have increasing := stamped.increasing.map Order.sequence (fun _ _ less => less)
    have sequences :
        (engine'.live.map Order.sequence).Sublist (engine.live.map Order.sequence) := by
      simpa only [List.map_map, Function.comp_def, Order.terms] using sub.map Order.sequence
    exact List.pairwise_map.mp (increasing.sublist sequences)
  · intro order member
    obtain ⟨origin, inLive, same⟩ := exists_origin sub member
    have sameSequence : order.sequence = origin.sequence := by rw [Order.terms_eq_iff.mp same]
    have before := UInt64.le_iff_toNat_le.mp (stamped.bounded origin inLive)
    rw [sameSequence, next, UInt64.le_iff_toNat_le, advance]
    omega
  · have fewer := sub.length_le
    have known := stamped.length
    rw [List.length_map, List.length_map] at fewer
    rw [next, advance]
    omega

theorem Stamped.execute (stamped : engine.Stamped) (order : Order) (outTrades : List Trade)
    (room : engine.sequence.toNat + 1 < 2 ^ 64) :
    (engine.execute order outTrades).engine.Stamped := by
  have sub := engine.matchEnd_terms order outTrades
  have after : (engine.afterMatch order outTrades).Stamped := stamped.of_terms sub rfl room
  rcases engine.execute_engine order outTrades with same | ⟨_, _, rested⟩
  · rwa [same]
  · have stamp : (engine.matchEnd order outTrades).order.sequence = engine.sequence + 1 := by
      rw [Order.terms_eq_iff.mp (engine.matchEnd_order order outTrades)]
    have advance := toNat_sequence_add_one room
    rw [rested]
    refine ⟨?_, ?_, ?_⟩
    · rw [List.pairwise_append]
      refine ⟨after.increasing, List.pairwise_singleton _ _, ?_⟩
      intro live member last isLast
      obtain ⟨origin, inLive, same⟩ := exists_origin sub member
      have sameSequence : live.sequence = origin.sequence := by rw [Order.terms_eq_iff.mp same]
      have before := UInt64.le_iff_toNat_le.mp (stamped.bounded origin inLive)
      rw [List.mem_singleton.mp isLast, stamp, sameSequence, UInt64.lt_iff_toNat_lt, advance]
      omega
    · intro live member
      rcases List.mem_append.mp member with old | last
      · exact after.bounded live old
      · rw [List.mem_singleton.mp last, stamp]
        exact UInt64.le_refl _
    · have fewer := sub.length_le
      have known := stamped.length
      rw [List.length_map, List.length_map] at fewer
      rw [List.length_append, List.length_singleton]
      change _ ≤ (engine.sequence + 1).toNat
      omega

theorem Stamped.step (stamped : engine.Stamped) (room : engine.sequence.toNat + 1 < 2 ^ 64)
    {outTrades : List Trade} (step : engine.Step outTrades command shortfall response) :
    response.engine.Stamped := by
  cases step with
  | rejected _ _ => exact stamped.of_terms (List.Sublist.refl _) rfl room
  | accepted _ => exact stamped.execute _ outTrades room
  | missing _ => exact stamped.of_terms (List.Sublist.refl _) rfl room
  | canceled _ => exact stamped.of_terms (List.filter_sublist.map _) rfl room

end Reference

end Lob
