import Lob.Reference.Ledger

/-!
# The orders that stand

The history of a run says which ids are live and how much of each is open, whatever the
length of the run. A LIMIT/GTC order that was accepted and not canceled since has its
requested quantity split between its trades and the live list; every other id is not live.
Unlike the full balance, this needs no exact preflight answer: what an order leaves that
never rests is not counted at all.
-/

namespace Lob

/-- The event is a successful cancel of the id. -/
def Event.cancels (orderId : UInt64) (event : Event) : Bool :=
  match event.command with
  | .newOrder _ => false
  | .cancel canceledId =>
      decide (canceledId = orderId) && decide (event.report.status = .canceled)

/-- Some event of the run canceled the id. -/
def canceledIn (orderId : UInt64) (events : List Event) : Bool :=
  events.any (Event.cancels orderId)

theorem canceledIn_concat (orderId : UInt64) (events : List Event) (event : Event) :
    canceledIn orderId (events ++ [event]) =
      (canceledIn orderId events || event.cancels orderId) := by
  simp [canceledIn]

theorem tradedQuantity_eq_zero {orderId : UInt64} {trades : List Trade}
    (unnamed : ∀ trade ∈ trades, trade.names orderId = false) :
    tradedQuantity orderId trades = 0 := by
  have empty : trades.filter (fun trade => trade.names orderId) = [] :=
    List.filter_eq_nil_iff.mpr (fun trade member => by simp [unnamed trade member])
  rw [tradedQuantity, empty]
  rfl

theorem restingQuantity_eq_zero {orderId : UInt64} {live : List Order}
    (absent : ∀ order ∈ live, order.id ≠ orderId) : restingQuantity orderId live = 0 :=
  quantityWhere_eq_zero (fun order member => decide_eq_false (absent order member))

theorem restingQuantity_of_mem {live : List Order} (ids : (live.map Order.id).Nodup)
    {order : Order} (member : order ∈ live) :
    restingQuantity order.id live = order.quantity.toNat := by
  induction live with
  | nil => exact absurd member List.not_mem_nil
  | cons first live ih =>
      obtain ⟨notLater, ids'⟩ := List.nodup_cons.mp ids
      rw [restingQuantity, quantityWhere_cons, ← restingQuantity]
      rcases List.mem_cons.mp member with rfl | later
      · have rest : restingQuantity order.id live = 0 := by
          apply restingQuantity_eq_zero
          intro other inLive same
          exact notLater (same ▸ List.mem_map_of_mem inLive)
        rw [rest, if_pos (decide_eq_true rfl), Nat.add_zero]
      · have other : first.id ≠ order.id := by
          intro same
          exact notLater (same ▸ List.mem_map_of_mem later)
        rw [ih ids' later, if_neg (by simpa using other), Nat.zero_add]

namespace Reference

/-- What the history says about the live list. -/
structure Standing (engine : Reference) (events : List Event) (trades : List Trade) : Prop where
  known : ∀ before, before <+: events → ∀ orderId, canceledIn orderId before = true →
    orderId ∈ acceptedIds before
  gone : ∀ order ∈ acceptedOrders events,
    order.mayRest = false ∨ canceledIn order.id events = true →
      ∀ live ∈ engine.live, live.id ≠ order.id
  balance : ∀ order ∈ acceptedOrders events, order.mayRest = true →
    canceledIn order.id events = false →
      tradedQuantity order.id trades + restingQuantity order.id engine.live =
        order.quantity.toNat

theorem standing_fresh (limits : RiskLimits) : (fresh limits).Standing [] [] where
  known before sub orderId canceled := by
    rw [List.prefix_nil.mp sub] at canceled
    contradiction
  gone _ member := absurd member List.not_mem_nil
  balance _ member := absurd member List.not_mem_nil

section Step

variable {engine engine' : Reference} {events : List Event} {trades trades' : List Trade}
  {event : Event}

/-- A prefix of a longer history is a prefix of the history or all of it. -/
theorem known_concat (known : ∀ before, before <+: events → ∀ orderId,
      canceledIn orderId before = true → orderId ∈ acceptedIds before)
    (now : ∀ orderId, event.cancels orderId = true → orderId ∈ acceptedIds events) :
    ∀ before, before <+: events ++ [event] → ∀ orderId, canceledIn orderId before = true →
      orderId ∈ acceptedIds before := by
  intro before sub orderId canceled
  rcases List.prefix_concat_iff.mp sub with rfl | shorter
  · apply (acceptedIds_sublist_concat events event).subset
    rw [canceledIn_concat, Bool.or_eq_true] at canceled
    exact canceled.elim (known events (List.prefix_refl _) orderId) (now orderId)
  · exact known before shorter orderId canceled

theorem acceptedOrders_concat_of_none (accepts : event.acceptedOrder = none) :
    acceptedOrders (events ++ [event]) = acceptedOrders events := by
  rw [acceptedOrders_concat, accepts, Option.toList_none, List.append_nil]

/-- An event that accepts and cancels nothing leaves the history's answer alone. -/
theorem Standing.idle (standing : engine.Standing events trades)
    (accepts : event.acceptedOrder = none) (keeps : ∀ orderId, event.cancels orderId = false)
    (same : engine'.live = engine.live) : engine'.Standing (events ++ [event]) trades := by
  have orders : acceptedOrders (events ++ [event]) = acceptedOrders events :=
    acceptedOrders_concat_of_none accepts
  have canceled : ∀ orderId, canceledIn orderId (events ++ [event]) =
      canceledIn orderId events := by
    intro orderId
    rw [canceledIn_concat, keeps, Bool.or_false]
  refine ⟨known_concat standing.known ?_, ?_, ?_⟩
  · intro orderId cancels
    rw [keeps] at cancels
    contradiction
  · simp only [orders, canceled, same]
    exact standing.gone
  · simp only [orders, canceled, same]
    exact standing.balance

/-- A cancel takes its id off the live list and touches no other. -/
theorem Standing.canceled (standing : engine.Standing events trades)
    (recorded : engine.Recorded events trades) (sound : engine.Sound) {canceledId : UInt64}
    {order : Order} (found : engine.cancelTarget canceledId = some order)
    (accepts : event.acceptedOrder = none)
    (cancels : ∀ orderId, event.cancels orderId = decide (canceledId = orderId))
    (live : engine'.live = engine.live.filter (fun order => decide (order.id ≠ canceledId))) :
    engine'.Standing (events ++ [event]) trades := by
  obtain ⟨_, member, sameId⟩ := mem_live_of_cancelTarget found
  have orders : acceptedOrders (events ++ [event]) = acceptedOrders events :=
    acceptedOrders_concat_of_none accepts
  refine ⟨known_concat standing.known ?_, ?_, ?_⟩
  · intro orderId isCancel
    rw [cancels, decide_eq_true_eq] at isCancel
    rw [← isCancel, ← sameId]
    exact recorded.arrival.subset (List.mem_map_of_mem member)
  · intro accepted inEvents reason other inLive
    rw [orders] at inEvents
    rw [live, List.mem_filter, decide_eq_true_eq] at inLive
    rw [canceledIn_concat, cancels, Bool.or_eq_true, decide_eq_true_eq] at reason
    rcases reason with leaves | before | now
    · exact standing.gone accepted inEvents (Or.inl leaves) other inLive.1
    · exact standing.gone accepted inEvents (Or.inr before) other inLive.1
    · exact now ▸ inLive.2
  · intro accepted inEvents mayRest notCanceled
    rw [orders] at inEvents
    rw [canceledIn_concat, cancels, Bool.or_eq_false_iff, decide_eq_false_iff_not] at notCanceled
    have moved := restingQuantity_cancel sound found accepted.id
    rw [if_neg notCanceled.2, Nat.add_zero] at moved
    rw [live, moved]
    exact standing.balance accepted inEvents mayRest notCanceled.1

/-- Executing an order moves quantity between its own trades and its remainder; every
other id keeps its sum. -/
theorem open_execute (sound : engine.Sound) {order : Order}
    (new : order.id ∉ engine.seenOrderIds) (trades : List Trade) (orderId : UInt64)
    (rests : order.id = orderId → order.mayRest = true) :
    tradedQuantity orderId (engine.execute order trades).outTrades +
        restingQuantity orderId (engine.execute order trades).engine.live =
      tradedQuantity orderId trades + restingQuantity orderId engine.live +
        if order.id = orderId then order.quantity.toNat else 0 := by
  have moved := held_matchEnd sound new trades orderId
  have resting := restingQuantity_execute engine order trades orderId
  have sameTrades : (engine.execute order trades).outTrades =
    (engine.matchEnd order trades).outTrades := rfl
  simp only [held, matchStart, matchEnd_order_id] at moved
  rw [sameTrades, resting]
  by_cases own : order.id = orderId
  · simp only [own, rests own, and_self, if_true] at moved ⊢
    omega
  · simp only [own, false_and, if_false] at moved ⊢
    omega

theorem acceptedOrders_concat_execute {order accepted : Order} :
    accepted ∈ acceptedOrders
        (events ++ [⟨.newOrder order, (engine.execute order trades).report⟩]) ↔
      accepted ∈ acceptedOrders events ∨ accepted = order := by
  rw [acceptedOrders_concat, acceptedOrder_execute, Option.toList_some, List.mem_append,
    List.mem_singleton]

theorem canceledIn_concat_newOrder {order : Order} {report : ExecutionReport}
    (orderId : UInt64) :
    canceledIn orderId (events ++ [⟨.newOrder order, report⟩]) = canceledIn orderId events := by
  rw [canceledIn_concat, Event.cancels, Bool.or_false]

section Execute

variable {order : Order} {shortfall : Bool}

/-- An order that was canceled or may not rest does not come back to the list. -/
theorem Standing.gone_execute (standing : engine.Standing events trades)
    (recorded : engine.Recorded events trades) (sound : engine.Sound)
    (passed : engine.Passed order shortfall) {accepted : Order}
    (known : accepted ∈ acceptedOrders events ∨ accepted = order)
    (reason : accepted.mayRest = false ∨ canceledIn accepted.id events = true) :
    ∀ live ∈ (engine.execute order trades).engine.live, live.id ≠ accepted.id := by
  intro live member
  have new := recorded.not_mem_acceptedIds passed
  rcases known with old | rfl
  · rcases execute_live_cases member with inLive | rested
    · obtain ⟨origin, inEngine, same⟩ := exists_origin (engine.matchEnd_terms order trades) inLive
      rw [Order.terms_eq_iff.mp same]
      exact standing.gone accepted old reason origin inEngine
    · rw [rested, matchEnd_order_id]
      exact fun same => new (same ▸ List.mem_map_of_mem old)
  · -- nothing canceled the new order, so it may not rest
    have leaves : accepted.mayRest = false := by
      refine reason.resolve_right (fun canceled => new ?_)
      exact standing.known events (List.prefix_refl _) accepted.id canceled
    rcases engine.execute_engine accepted trades with same | ⟨mayRest, _, _⟩
    · rw [same] at member
      exact sound.new_of_passed passed trades live member
    · rw [leaves] at mayRest
      contradiction

/-- What an accepted order has traded and what it leaves resting make up its quantity. -/
theorem Standing.balance_execute (standing : engine.Standing events trades)
    (recorded : engine.Recorded events trades) (sound : engine.Sound)
    (passed : engine.Passed order shortfall) {accepted : Order}
    (known : accepted ∈ acceptedOrders events ∨ accepted = order)
    (mayRest : accepted.mayRest = true) (notCanceled : canceledIn accepted.id events = false) :
    tradedQuantity accepted.id (engine.execute order trades).outTrades +
        restingQuantity accepted.id (engine.execute order trades).engine.live =
      accepted.quantity.toNat := by
  have new := recorded.not_mem_acceptedIds passed
  rcases known with old | rfl
  · have apart : order.id ≠ accepted.id := fun same => new (same ▸ List.mem_map_of_mem old)
    rw [open_execute sound passed.new trades accepted.id (fun same => absurd same apart),
      if_neg apart]
    exact standing.balance accepted old mayRest notCanceled
  · have untraded : tradedQuantity accepted.id trades = 0 := by
      apply tradedQuantity_eq_zero
      intro trade member
      rw [← Bool.not_eq_true, Trade.names, Bool.or_eq_true, decide_eq_true_eq,
        decide_eq_true_eq]
      exact fun named => new (recorded.named trade member accepted.id named)
    have absent : restingQuantity accepted.id engine.live = 0 := by
      apply restingQuantity_eq_zero
      intro live member same
      exact passed.new (same ▸ sound.seen live member)
    rw [open_execute sound passed.new trades accepted.id (fun _ => mayRest), if_pos rfl,
      untraded, absent]
    omega

/-- An accepted order is new to the history: nothing canceled it, traded it or lists it. -/
theorem Standing.execute (standing : engine.Standing events trades)
    (recorded : engine.Recorded events trades) (sound : engine.Sound)
    (passed : engine.Passed order shortfall) :
    (engine.execute order trades).engine.Standing
      (events ++ [⟨.newOrder order, (engine.execute order trades).report⟩])
      (engine.execute order trades).outTrades := by
  refine ⟨known_concat standing.known ?_, ?_, ?_⟩
  · intro orderId cancels
    simp only [Event.cancels, Bool.false_eq_true] at cancels
  · intro accepted inEvents reason
    rw [canceledIn_concat_newOrder] at reason
    exact standing.gone_execute recorded sound passed
      (acceptedOrders_concat_execute.mp inEvents) reason
  · intro accepted inEvents mayRest notCanceled
    rw [canceledIn_concat_newOrder] at notCanceled
    exact standing.balance_execute recorded sound passed
      (acceptedOrders_concat_execute.mp inEvents) mayRest notCanceled

end Execute

theorem Standing.step (standing : engine.Standing events trades)
    (recorded : engine.Recorded events trades) (sound : engine.Sound) {command : Command}
    {shortfall : Bool} {response : Response}
    (step : engine.Step trades command shortfall response) :
    response.engine.Standing (events ++ [⟨command, response.report⟩]) response.outTrades := by
  cases step with
  | rejected refused failed =>
      exact standing.idle (by simp [Event.acceptedOrder, rejectedReport, ExecutionReport.accepted])
        (fun _ => rfl) rfl
  | accepted passed => exact standing.execute recorded sound (passed_of_rejectReason passed)
  | missing absent =>
      refine standing.idle rfl ?_ rfl
      intro orderId
      simp [Event.cancels]
  | canceled found =>
      refine standing.canceled recorded sound found rfl ?_ rfl
      intro orderId
      simp [Event.cancels]

end Step

end Reference

/-! ### Outstanding orders -/

/-- The order was accepted as one that may rest, was not canceled since, and its trades do
not sum to its quantity. -/
structure Outstanding (events : List Event) (trades : List Trade) (order : Order) : Prop where
  accepted : ∃ before report after, events = before ++ ⟨.newOrder order, report⟩ :: after ∧
    report.accepted = true ∧ canceledIn order.id after = false
  limit : order.type = .limit
  gtc : order.timeInForce = .gtc
  unfilled : tradedQuantity order.id trades < order.quantity.toNat

theorem Outstanding.mem_acceptedOrders {events : List Event} {trades : List Trade} {order : Order}
    (outstanding : Outstanding events trades order) : order ∈ acceptedOrders events := by
  obtain ⟨before, report, after, rfl, accepted, _⟩ := outstanding.accepted
  refine Lob.mem_acceptedOrders.mpr ⟨_, List.mem_append_right _ List.mem_cons_self, ?_⟩
  simp only [Event.acceptedOrder, accepted, if_true]

namespace Reference

section Outstanding

variable {engine : Reference} {events : List Event} {trades : List Trade}

/-- An id is accepted once, so a cancel of it stands behind its acceptance. -/
theorem Standing.canceledIn_eq (standing : engine.Standing events trades)
    (recorded : engine.Recorded events trades) {order : Order} {before after : List Event}
    {report : ExecutionReport} (split : events = before ++ ⟨.newOrder order, report⟩ :: after)
    (accepted : report.accepted = true) :
    canceledIn order.id events = canceledIn order.id after := by
  have earlier : canceledIn order.id before = false := by
    rw [← Bool.not_eq_true]
    intro canceled
    have old := standing.known before ⟨_, split.symm⟩ order.id canceled
    have unique := recorded.unique
    have own : (Event.mk (.newOrder order) report).acceptedOrder = some order := by
      simp only [Event.acceptedOrder, accepted, if_true]
    rw [split, acceptedIds, acceptedOrders, List.filterMap_append, List.filterMap_cons_some own,
      List.map_append] at unique
    exact (List.nodup_append.mp unique).2.2 order.id old order.id
      (List.mem_map_of_mem List.mem_cons_self) rfl
  rw [split, canceledIn, List.any_append, List.any_cons]
  rw [canceledIn] at earlier
  rw [earlier, Event.cancels, Bool.false_or, Bool.false_or, canceledIn]

theorem Standing.outstanding_of_live (standing : engine.Standing events trades)
    (recorded : engine.Recorded events trades) (sound : engine.Sound) {live : Order}
    (member : live ∈ engine.live) :
    ∃ order, Outstanding events trades order ∧ live.StandsFor order := by
  obtain ⟨order, inEvents, stands⟩ := recorded.origin live member
  have sameId : live.id = order.id := by rw [stands]
  have stays : ¬(order.mayRest = false ∨ canceledIn order.id events = true) :=
    fun reason => standing.gone order inEvents reason live member sameId
  rw [not_or, Bool.not_eq_false, Bool.not_eq_true] at stays
  obtain ⟨mayRest, notCanceled⟩ := stays
  obtain ⟨limit, gtc⟩ := Order.mayRest_iff.mp mayRest
  obtain ⟨⟨command, report⟩, inHistory, accepts⟩ := mem_acceptedOrders.mp inEvents
  obtain ⟨rfl, accepted⟩ : command = .newOrder order ∧ report.accepted = true := by
    cases command with
    | cancel orderId => contradiction
    | newOrder incoming =>
        simp only [Event.acceptedOrder] at accepts
        split at accepts
        · rename_i accepted
          exact ⟨congrArg _ (Option.some.inj accepts), accepted⟩
        · contradiction
  obtain ⟨before, after, split⟩ := List.append_of_mem inHistory
  refine ⟨order, ⟨⟨before, report, after, split, accepted, ?_⟩, limit, gtc, ?_⟩, stands⟩
  · rwa [← standing.canceledIn_eq recorded split accepted]
  · have balance := standing.balance order inEvents mayRest notCanceled
    have positive := UInt32.lt_iff_toNat_lt.mp
      (UInt32.pos_iff_ne_zero.mpr (sound.restable live member).quantity)
    rw [← sameId, restingQuantity_of_mem sound.ids member] at balance
    rw [UInt32.toNat_zero] at positive
    rw [← sameId]
    omega

theorem Standing.balance_of_outstanding (standing : engine.Standing events trades)
    (recorded : engine.Recorded events trades) {order : Order}
    (outstanding : Outstanding events trades order) :
    tradedQuantity order.id trades + restingQuantity order.id engine.live =
      order.quantity.toNat := by
  obtain ⟨before, report, after, split, accepted, notCanceled⟩ := outstanding.accepted
  rw [← standing.canceledIn_eq recorded split accepted] at notCanceled
  exact standing.balance order outstanding.mem_acceptedOrders
    (Order.mayRest_iff.mpr ⟨outstanding.limit, outstanding.gtc⟩) notCanceled

/-- The history decides which ids are live. -/
theorem Standing.exists_live_iff (standing : engine.Standing events trades)
    (recorded : engine.Recorded events trades) (sound : engine.Sound) (orderId : UInt64) :
    (∃ live ∈ engine.live, live.id = orderId) ↔
      ∃ order, Outstanding events trades order ∧ order.id = orderId := by
  constructor
  · rintro ⟨live, member, rfl⟩
    obtain ⟨order, outstanding, stands⟩ := standing.outstanding_of_live recorded sound member
    exact ⟨order, outstanding, by rw [stands]⟩
  · rintro ⟨order, outstanding, rfl⟩
    have balance := standing.balance_of_outstanding recorded outstanding
    have unfilled := outstanding.unfilled
    by_contra absent
    push Not at absent
    rw [restingQuantity_eq_zero absent] at balance
    omega

/-- A live order stands for the outstanding one of its id, with what its trades left. -/
theorem Standing.eq_of_live (standing : engine.Standing events trades)
    (recorded : engine.Recorded events trades) (sound : engine.Sound) {live order : Order}
    (member : live ∈ engine.live) (outstanding : Outstanding events trades order)
    (sameId : live.id = order.id) :
    live.StandsFor order ∧
      live.quantity.toNat = order.quantity.toNat - tradedQuantity order.id trades := by
  obtain ⟨order', outstanding', stands⟩ := standing.outstanding_of_live recorded sound member
  have ids : order.id = order'.id := by rw [← sameId, stands]
  obtain rfl := List.inj_on_of_nodup_map recorded.unique outstanding.mem_acceptedOrders
    outstanding'.mem_acceptedOrders ids
  refine ⟨stands, ?_⟩
  have balance := standing.balance_of_outstanding recorded outstanding
  rw [← sameId, restingQuantity_of_mem sound.ids member] at balance
  rw [← sameId]
  omega

end Outstanding

end Reference

end Lob
