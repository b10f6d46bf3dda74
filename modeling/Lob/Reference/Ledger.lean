import Lob.Reference.History

/-!
# Quantity bookkeeping

Every quantity that an order brings in is accounted for: it has been traded, it still
rests, it was canceled, or it expired when the order arrived. The balance is kept for
each id separately. A trade moves quantity from its two parties to the trade list; the
other steps move it between the remaining columns.
-/

namespace Lob

/-! ### Sums over live orders and over trades -/

/-- The exact total quantity of the orders with a property. -/
def quantityWhere (p : Order → Bool) (live : List Order) : Nat :=
  ((live.filter p).map (fun order => order.quantity.toNat)).sum

@[simp] theorem quantityWhere_nil (p : Order → Bool) : quantityWhere p [] = 0 := rfl

theorem quantityWhere_cons (p : Order → Bool) (order : Order) (live : List Order) :
    quantityWhere p (order :: live) =
      (if p order then order.quantity.toNat else 0) + quantityWhere p live := by
  by_cases holds : p order = true <;> simp [quantityWhere, holds]

theorem quantityWhere_append (p : Order → Bool) (front back : List Order) :
    quantityWhere p (front ++ back) = quantityWhere p front + quantityWhere p back := by
  simp [quantityWhere]

theorem quantityWhere_eq_zero {p : Order → Bool} {live : List Order}
    (none : ∀ order ∈ live, p order = false) : quantityWhere p live = 0 := by
  have empty : live.filter p = [] := List.filter_eq_nil_iff.mpr (fun order member => by
    simp [none order member])
  rw [quantityWhere, empty]
  rfl

/-- The live quantity of one id. -/
def restingQuantity (orderId : UInt64) (live : List Order) : Nat :=
  quantityWhere (fun order => decide (order.id = orderId)) live

def Trade.names (trade : Trade) (orderId : UInt64) : Bool :=
  decide (trade.buyOrderId = orderId) || decide (trade.sellOrderId = orderId)

/-- The total quantity of the trades that name an id as buyer or seller. -/
def tradedQuantity (orderId : UInt64) (trades : List Trade) : Nat :=
  ((trades.filter (fun trade => trade.names orderId)).map (fun trade => trade.quantity.toNat)).sum

theorem tradedQuantity_concat (orderId : UInt64) (trades : List Trade) (trade : Trade) :
    tradedQuantity orderId (trades ++ [trade]) =
      tradedQuantity orderId trades + if trade.names orderId then trade.quantity.toNat else 0 := by
  by_cases named : trade.names orderId = true <;> simp [tradedQuantity, List.filter_append, named]

theorem names_tradeOf (tradeId orderId : UInt64) (order best : Order) (quantity : UInt32) :
    (tradeOf tradeId order best quantity).names orderId = true ↔
      order.id = orderId ∨ best.id = orderId := by
  by_cases buy : order.side = .buy <;> simp [Trade.names, tradeOf, buy, or_comm]

namespace Reference

/-! ### One trade -/

/-- A fill of `traded` takes exactly that much from every total that counts the order. -/
theorem quantityWhere_reduce {p : Order → Bool}
    (fixed : ∀ order order' : Order, order.terms = order'.terms → p order = p order')
    {live : List Order} (ids : (live.map Order.id).Nodup) {best : Order} (member : best ∈ live)
    {traded : UInt32} (enough : traded ≤ best.quantity) :
    quantityWhere p (live.filterMap (reduce best.id traded)) +
      (if p best then traded.toNat else 0) = quantityWhere p live := by
  induction live with
  | nil => exact absurd member List.not_mem_nil
  | cons order live ih =>
      obtain ⟨notLater, ids'⟩ := List.nodup_cons.mp ids
      rcases List.mem_cons.mp member with rfl | later
      · -- the filled order: the ids behind it differ, so the rest is left alone
        have rest : live.filterMap (reduce best.id traded) = live := by
          have same : ∀ other ∈ live, reduce best.id traded other = some other := by
            intro other inLive
            apply reduce_of_ne
            intro sameId
            exact notLater (sameId ▸ List.mem_map_of_mem inLive)
          rw [List.filterMap_congr same]
          exact List.filterMap_some
        have difference := UInt32.toNat_sub_of_le _ _ enough
        have bound := UInt32.le_iff_toNat_le.mp enough
        by_cases all : best.quantity = traded
        · have gone : reduce best.id traded best = none := by simp [reduce, all]
          rw [List.filterMap_cons_none gone, rest, quantityWhere_cons, all]
          omega
        · have left : reduce best.id traded best =
              some { best with quantity := best.quantity - traded } := by simp [reduce, all]
          rw [List.filterMap_cons_some left, rest, quantityWhere_cons, quantityWhere_cons,
            fixed { best with quantity := best.quantity - traded } best rfl]
          dsimp only
          split <;> omega
      · have other : order.id ≠ best.id := by
          intro same
          exact notLater (same ▸ List.mem_map_of_mem later)
        rw [List.filterMap_cons_some (reduce_of_ne other), quantityWhere_cons, quantityWhere_cons,
          ← ih ids' later]
        omega

/-- What a loop state holds for an id: traded, resting, and open on the incoming order. -/
def held (orderId : UInt64) (state : MatchState) : Nat :=
  tradedQuantity orderId state.outTrades + restingQuantity orderId state.live +
    if state.order.id = orderId then state.order.quantity.toNat else 0

theorem held_traded {state : MatchState} {best : Order} (orderId : UInt64)
    (ids : (state.live.map Order.id).Nodup) (new : ∀ live ∈ state.live, live.id ≠ state.order.id)
    (picked : pickBest state.live state.order = some best) :
    held orderId (traded state best) = held orderId state := by
  have member := (pickBest_mem picked).1
  let quantity := min state.order.quantity best.quantity
  have rests : restingQuantity orderId (state.live.filterMap (reduce best.id quantity)) +
      (if decide (best.id = orderId) then quantity.toNat else 0) =
        restingQuantity orderId state.live :=
    quantityWhere_reduce (fun _ _ same => by rw [Order.terms_eq_iff.mp same]) ids member
      Std.min_le_right
  have left : (state.order.quantity - quantity).toNat + quantity.toNat =
      state.order.quantity.toNat := by
    have bound : quantity ≤ state.order.quantity := Std.min_le_left
    have difference := UInt32.toNat_sub_of_le _ _ bound
    have := UInt32.le_iff_toNat_le.mp bound
    omega
  have apart := new best member
  have shape : held orderId (traded state best) =
      tradedQuantity orderId (state.outTrades ++
        [tradeOf state.nextTradeId state.order best quantity]) +
      restingQuantity orderId (state.live.filterMap (reduce best.id quantity)) +
        if state.order.id = orderId then (state.order.quantity - quantity).toNat else 0 := rfl
  rw [shape, tradedQuantity_concat, held]
  have amount : (tradeOf state.nextTradeId state.order best quantity).quantity = quantity := rfl
  rw [amount]
  by_cases isIncoming : state.order.id = orderId
  · have notBest : best.id ≠ orderId := isIncoming ▸ apart
    have named := (names_tradeOf state.nextTradeId orderId state.order best quantity).mpr
      (Or.inl isIncoming)
    simp only [isIncoming, named, if_true, notBest, decide_false, Bool.false_eq_true, if_false]
      at rests ⊢
    omega
  · by_cases isBest : best.id = orderId
    · have named := (names_tradeOf state.nextTradeId orderId state.order best quantity).mpr
        (Or.inr isBest)
      simp only [isIncoming, named, if_true, isBest, decide_true, if_false] at rests ⊢
      omega
    · have unnamed : ¬(tradeOf state.nextTradeId state.order best quantity).names orderId = true :=
        fun named => ((names_tradeOf _ _ _ _ _).mp named).elim isIncoming isBest
      simp only [isIncoming, unnamed, isBest, decide_false, Bool.false_eq_true, if_false]
        at rests ⊢
      omega

/-! ### The matching loop -/

/-- The loop moves quantity between the columns of `held` only. -/
theorem held_matchEnd {engine : Reference} (sound : engine.Sound) {order : Order}
    (new : order.id ∉ engine.seenOrderIds) (outTrades : List Trade) (orderId : UInt64) :
    held orderId (engine.matchEnd order outTrades) =
      held orderId (engine.matchStart order outTrades) := by
  have invariant := matchLoop_induction
    (P := fun current => held orderId current = held orderId (engine.matchStart order outTrades) ∧
      current.order.id = order.id ∧
      (current.live.map Order.id).Sublist (engine.live.map Order.id))
    ?_ engine.live.length ⟨rfl, rfl, List.Sublist.refl _⟩
  · exact invariant.1
  · rintro current best ⟨same, sameId, sub⟩ _ picked
    refine ⟨(held_traded orderId (sound.ids.sublist sub) ?_ picked).trans same, sameId,
      (ids_sublist_of_terms (filterMap_reduce_terms _ _ _)).trans sub⟩
    intro live member isIncoming
    obtain ⟨origin, inLive, originId⟩ :=
      List.mem_map.mp (sub.subset (List.mem_map_of_mem member))
    exact new (sameId ▸ isIncoming ▸ originId ▸ sound.seen origin inLive)

/-- The loop takes the same quantity from the order and from the acceptable live orders. -/
theorem matchEnd_offer {engine : Reference} (sound : engine.Sound) (order : Order)
    (outTrades : List Trade) :
    (engine.matchEnd order outTrades).order.quantity.toNat +
        acceptableQuantity engine.live order =
      order.quantity.toNat +
        quantityWhere order.accepts (engine.matchEnd order outTrades).live := by
  have invariant := matchLoop_induction
    (P := fun current => current.order.terms = (engine.matchStart order outTrades).order.terms ∧
      (current.live.map Order.id).Sublist (engine.live.map Order.id) ∧
      current.order.quantity.toNat + acceptableQuantity engine.live order =
        order.quantity.toNat + quantityWhere order.accepts current.live)
    ?_ engine.live.length ⟨rfl, List.Sublist.refl _, rfl⟩
  · exact invariant.2.2
  · rintro current best ⟨same, sub, offer⟩ _ picked
    refine ⟨same, (ids_sublist_of_terms (filterMap_reduce_terms _ _ _)).trans sub, ?_⟩
    obtain ⟨member, accepted⟩ := pickBest_mem picked
    have acceptable : order.accepts best = true :=
      (Order.accepts_of_terms same rfl).symm.trans accepted
    have part : min current.order.quantity best.quantity ≤ current.order.quantity :=
      Std.min_le_left
    have part' : min current.order.quantity best.quantity ≤ best.quantity := Std.min_le_right
    have taken := quantityWhere_reduce (p := order.accepts)
      (fun _ _ sameTerms => Order.accepts_of_terms rfl sameTerms) (sound.ids.sublist sub) member
      part'
    have difference := UInt32.toNat_sub_of_le _ _ part
    have smaller := UInt32.le_iff_toNat_le.mp part
    rw [acceptable, if_pos rfl] at taken
    simp only [traded]
    omega

/-- What an order leaves unfilled is its shortfall against the acceptable live orders. -/
theorem matchEnd_remaining {engine : Reference} (sound : engine.Sound) (order : Order)
    (outTrades : List Trade) :
    (engine.matchEnd order outTrades).order.quantity.toNat =
      order.quantity.toNat - acceptableQuantity engine.live order := by
  have offer := matchEnd_offer sound order outTrades
  rcases engine.matchEnd_done order outTrades with zero | refused
  · rw [zero, UInt32.toNat_zero] at offer ⊢
    omega
  · rw [quantityWhere_eq_zero refused] at offer
    omega

/-- An order that the live list can fill at once leaves no remainder. -/
theorem matchEnd_filled {engine : Reference} (sound : engine.Sound) {order : Order}
    (fillable : shortfall engine.live order = false) (outTrades : List Trade) :
    (engine.matchEnd order outTrades).order.quantity = 0 := by
  have enough : order.quantity.toNat ≤ acceptableQuantity engine.live order := by
    simpa [shortfall] using fillable
  apply UInt32.toNat.inj
  rw [matchEnd_remaining sound, UInt32.toNat_zero]
  omega

/-! ### The balance of a run -/

end Reference

/-- The quantity that the event brought in under an id. -/
def Event.requestedQuantity (orderId : UInt64) (event : Event) : Nat :=
  match event.acceptedOrder with
  | some order => if order.id = orderId then order.quantity.toNat else 0
  | none => 0

/-- The quantity that the event reports as canceled under an id. -/
def Event.canceledQuantity (orderId : UInt64) (event : Event) : Nat :=
  match event.command with
  | .newOrder _ => 0
  | .cancel canceledId =>
      if canceledId = orderId ∧ event.report.status = .canceled then
        event.report.requestedQuantity.toNat
      else 0

/-- The order never rests: what is not filled at once expires. -/
def Order.immediate (order : Order) : Bool :=
  decide (order.type = .market) || decide (order.timeInForce = .ioc)

/-- The remainder under an id that expired when its order arrived. -/
def Event.expiredQuantity (orderId : UInt64) (event : Event) : Nat :=
  match event.acceptedOrder with
  | some order =>
      if order.id = orderId ∧ order.immediate = true then event.report.remainingQuantity.toNat
      else 0
  | none => 0

/-- A column of the ledger: one quantity per event. -/
def columnTotal (column : Event → Nat) (events : List Event) : Nat := (events.map column).sum

theorem columnTotal_concat (column : Event → Nat) (events : List Event) (event : Event) :
    columnTotal column (events ++ [event]) = columnTotal column events + column event := by
  simp [columnTotal]

namespace Reference

/-- What came in under each id is traded, resting, canceled or expired. -/
def Balanced (engine : Reference) (events : List Event) (trades : List Trade) : Prop :=
  ∀ orderId, columnTotal (Event.requestedQuantity orderId) events =
    tradedQuantity orderId trades + restingQuantity orderId engine.live +
      columnTotal (Event.canceledQuantity orderId) events +
      columnTotal (Event.expiredQuantity orderId) events

variable {engine : Reference} {events : List Event} {outTrades : List Trade}

theorem balanced_fresh (limits : RiskLimits) : (fresh limits).Balanced [] [] := fun _ => rfl

/-- The unfilled remainder of an accepted order rests, expires or is zero. -/
theorem remainder_cases (sound : engine.Sound) {order : Order}
    (passed : engine.Passed order (shortfall engine.live order)) (outTrades : List Trade) :
    (order.mayRest = true ∧ order.immediate = false) ∨
      (order.mayRest = false ∧
        (order.immediate = true ∨ (engine.matchEnd order outTrades).order.quantity = 0)) := by
  by_cases market : order.type = .market
  · have notLimit : ¬order.type = .limit := by
      rw [market]
      exact OrderType.limit_ne_market.symm
    exact Or.inr ⟨by simp [Order.mayRest, notLimit], Or.inl (by simp [Order.immediate, market])⟩
  · have limit : order.type = .limit :=
      (isValidOrderType_iff.mp passed.valid.type).resolve_right market
    have force := passed.valid.timeInForce
    simp only [isValidTimeInForce, Bool.or_eq_true, decide_eq_true_eq] at force
    rcases force with (gtc | ioc) | fok
    · exact Or.inl ⟨by simp [Order.mayRest, limit, gtc],
        by simp [Order.immediate, limit, gtc, OrderType.limit_ne_market, TimeInForce.gtc_ne_ioc]⟩
    · exact Or.inr ⟨by simp [Order.mayRest, ioc, TimeInForce.gtc_ne_ioc.symm],
        Or.inl (by simp [Order.immediate, ioc])⟩
    · exact Or.inr ⟨by simp [Order.mayRest, fok, TimeInForce.gtc_ne_fok.symm],
        Or.inr (matchEnd_filled sound (passed.fillable fok) outTrades)⟩

theorem restingQuantity_execute (engine : Reference) (order : Order) (outTrades : List Trade)
    (orderId : UInt64) :
    restingQuantity orderId (engine.execute order outTrades).engine.live =
      restingQuantity orderId (engine.matchEnd order outTrades).live +
        if order.id = orderId ∧ order.mayRest = true then
          (engine.matchEnd order outTrades).order.quantity.toNat
        else 0 := by
  simp only [execute]
  by_cases mayRest : order.mayRest = true
  · by_cases opened : (engine.matchEnd order outTrades).order.quantity > 0
    · simp only [opened, mayRest, and_self, if_true, and_true, restingQuantity,
        quantityWhere_append, quantityWhere_cons, quantityWhere_nil, matchEnd_order_id,
        decide_eq_true_eq, Nat.add_zero]
    · have zero : (engine.matchEnd order outTrades).order.quantity = 0 := by
        by_contra positive
        exact opened (UInt32.pos_iff_ne_zero.mpr positive)
      simp [zero]
  · simp [mayRest]

theorem restingQuantity_cancel (sound : engine.Sound) {canceledId : UInt64} {order : Order}
    (found : engine.cancelTarget canceledId = some order) (orderId : UInt64) :
    restingQuantity orderId
        (engine.live.filter (fun order => decide (order.id ≠ canceledId))) +
      (if canceledId = orderId then order.quantity.toNat else 0) =
        restingQuantity orderId engine.live := by
  obtain ⟨_, member, sameId⟩ := mem_live_of_cancelTarget found
  have gone : engine.live.filterMap (reduce order.id order.quantity) =
      engine.live.filter (fun other => decide (other.id ≠ canceledId)) := by
    rw [← List.filterMap_eq_filter]
    apply List.filterMap_congr
    intro other inLive
    by_cases same : other.id = order.id
    · obtain rfl := List.inj_on_of_nodup_map sound.ids inLive member same
      simp [reduce, Option.guard, sameId]
    · rw [reduce_of_ne same]
      simp [Option.guard, ← sameId, same]
  have taken := quantityWhere_reduce (p := fun other => decide (other.id = orderId))
    (fun _ _ same => by rw [Order.terms_eq_iff.mp same]) sound.ids member (UInt32.le_refl _)
  rw [gone, sameId] at taken
  simpa only [restingQuantity, decide_eq_true_eq] using taken

/-- Every command keeps the balance when the preflight answer is exact. -/
theorem Balanced.step (balanced : engine.Balanced events outTrades) (sound : engine.Sound)
    {command : Command} {response : Response}
    (step : engine.Step outTrades command (engine.exactShortfall command) response) :
    response.engine.Balanced (events ++ [⟨command, response.report⟩]) response.outTrades := by
  intro orderId
  have before := balanced orderId
  simp only [columnTotal_concat]
  cases step with
  | rejected refused failed =>
      simpa [Event.requestedQuantity, Event.canceledQuantity, Event.expiredQuantity,
        Event.acceptedOrder, rejectedReport, ExecutionReport.accepted] using before
  | missing absent =>
      simpa [Event.requestedQuantity, Event.canceledQuantity, Event.expiredQuantity,
        Event.acceptedOrder] using before
  | canceled found =>
      have moved := restingQuantity_cancel sound found orderId
      simp only [Event.requestedQuantity, Event.canceledQuantity, Event.expiredQuantity,
        Event.acceptedOrder, and_true]
      omega
  | accepted passed =>
      rename_i order
      have facts := passed_of_rejectReason passed
      have moved := held_matchEnd sound facts.new outTrades orderId
      have resting := restingQuantity_execute engine order outTrades orderId
      simp only [held, matchStart, matchEnd_order_id] at moved
      simp only [Event.requestedQuantity, Event.canceledQuantity, Event.expiredQuantity,
        acceptedOrder_execute]
      have trades : (engine.execute order outTrades).outTrades =
        (engine.matchEnd order outTrades).outTrades := rfl
      have remaining : (engine.execute order outTrades).report.remainingQuantity =
        (engine.matchEnd order outTrades).order.quantity := rfl
      rw [trades, remaining, resting]
      by_cases own : order.id = orderId
      · rcases remainder_cases sound facts outTrades with ⟨mayRest, immediate⟩ | ⟨noRest, expires⟩
        · simp only [own, mayRest, immediate, and_self, if_true, Bool.false_eq_true, and_false,
            if_false] at moved ⊢
          omega
        · rcases expires with immediate | zero
          · simp only [own, noRest, immediate, and_self, if_true, Bool.false_eq_true, and_false,
              if_false] at moved ⊢
            omega
          · simp only [own, noRest, zero, if_true, Bool.false_eq_true, and_false,
              UInt32.toNat_zero, ite_self] at moved ⊢
            omega
      · simp only [own, false_and, if_false] at moved ⊢
        omega

end Reference

end Lob
