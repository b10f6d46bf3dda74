import Lob.Reference.Invariant

/-!
# Symmetries of the reference engine

A `Symmetry` is a change of orders that the reference engine cannot tell apart: it keeps
ids and quantities, it commutes with fills, and it preserves which live orders an incoming
order accepts and how it ranks them. The engine that runs on the images of the orders then
makes the images of the trades, in the same order, and stays the image of the other one.
Nothing is said about sequences, which the two engines may assign differently.
-/

namespace Lob

/-- An order-preserving change of items carries the first least item along. -/
theorem firstLeast_map {α β γ δ : Type*} [LinearOrder β] [LinearOrder δ] {rank : α → β}
    {rank' : γ → δ} {change : α → γ} {items : List α}
    (same : ∀ a ∈ items, ∀ b ∈ items, rank' (change a) < rank' (change b) ↔ rank a < rank b) :
    firstLeast rank' (items.map change) = (firstLeast rank items).map change := by
  induction items using List.reverseRecOn with
  | nil => rfl
  | append_singleton items item ih =>
      have earlier := ih (fun a inItems b inItems' =>
        same a (List.mem_append_left _ inItems) b (List.mem_append_left _ inItems'))
      simp only [firstLeast] at earlier ⊢
      rw [List.map_append, List.map_singleton, List.argmin_concat, List.argmin_concat, earlier]
      cases picked : items.argmin rank with
      | none => rfl
      | some best =>
          have compare := same item (by simp) best
            (List.mem_append_left _ (List.argmin_mem picked))
          by_cases better : rank item < rank best
          · simp [better, compare.mpr better]
          · simp [better, mt compare.mp better]

namespace Reference

/-- A change `image` of orders, with the change `imageTrade` of trades that goes with it,
that matching respects for the orders of `domain`. Live orders are limit orders. -/
structure Symmetry (image : Order → Order) (imageTrade : Trade → Trade) (domain : Order → Prop) :
    Prop where
  id : ∀ order, (image order).id = order.id
  quantity : ∀ order, (image order).quantity = order.quantity
  refill : ∀ order quantity,
    image { order with quantity := quantity } = { image order with quantity := quantity }
  closed : ∀ order quantity, domain order → domain { order with quantity := quantity }
  accepts : ∀ incoming live, domain incoming → domain live → live.type = .limit →
    (image incoming).accepts (image live) = incoming.accepts live
  rank : ∀ incoming a b, domain incoming → domain a → a.type = .limit → domain b →
    b.type = .limit →
    ((image incoming).rank (image a) < (image incoming).rank (image b) ↔
      incoming.rank a < incoming.rank b)
  trade : ∀ tradeId incoming live quantity, domain incoming → domain live → live.type = .limit →
    tradeOf tradeId (image incoming) (image live) quantity =
      imageTrade (tradeOf tradeId incoming live quantity)

/-- The live orders are in the domain of a symmetry. -/
def Lives (domain : Order → Prop) (live : List Order) : Prop :=
  ∀ order ∈ live, domain order ∧ order.type = .limit

/-- The loop state with all orders and trades replaced by their images. -/
def MatchState.image (image : Order → Order) (imageTrade : Trade → Trade) (state : MatchState) :
    MatchState where
  live := state.live.map image
  order := image state.order
  nextTradeId := state.nextTradeId
  outTrades := state.outTrades.map imageTrade

namespace Symmetry

variable {image : Order → Order} {imageTrade : Trade → Trade} {domain : Order → Prop}
  {live : List Order} {incoming : Order} {state : MatchState}

theorem filter_accepts (symmetry : Symmetry image imageTrade domain) (inDomain : domain incoming)
    (lives : Lives domain live) :
    (live.map image).filter (image incoming).accepts =
      (live.filter incoming.accepts).map image := by
  rw [List.filter_map]
  congr 1
  apply List.filter_congr
  intro order member
  exact symmetry.accepts incoming order inDomain (lives order member).1 (lives order member).2

theorem any_accepts (symmetry : Symmetry image imageTrade domain) (inDomain : domain incoming)
    (lives : Lives domain live) :
    (live.map image).any (image incoming).accepts = live.any incoming.accepts := by
  have same := symmetry.filter_accepts inDomain lives
  rw [Bool.eq_iff_iff, List.any_eq_true, List.any_eq_true]
  simp only [← List.mem_filter, same, ← List.length_pos_iff_exists_mem, List.length_map]

theorem pickBest_image (symmetry : Symmetry image imageTrade domain) (inDomain : domain incoming)
    (lives : Lives domain live) :
    pickBest (live.map image) (image incoming) = (pickBest live incoming).map image := by
  rw [pickBest, symmetry.filter_accepts inDomain lives, pickBest]
  apply firstLeast_map
  intro a inA b inB
  obtain ⟨domainA, limitA⟩ := lives a (List.mem_filter.mp inA).1
  obtain ⟨domainB, limitB⟩ := lives b (List.mem_filter.mp inB).1
  exact symmetry.rank incoming a b inDomain domainA limitA domainB limitB

theorem filterMap_reduce (symmetry : Symmetry image imageTrade domain) (orderId : UInt64)
    (traded : UInt32) (live : List Order) :
    (live.map image).filterMap (reduce orderId traded) =
      (live.filterMap (reduce orderId traded)).map image := by
  rw [List.filterMap_map, List.map_filterMap]
  apply List.filterMap_congr
  intro order _
  have sameId := symmetry.id order
  have sameQuantity := symmetry.quantity order
  rw [Function.comp_apply, reduce, reduce]
  by_cases named : order.id = orderId
  · rw [if_pos (sameId.trans named), if_pos named]
    by_cases all : order.quantity = traded
    · rw [if_pos (sameQuantity.trans all), if_pos all]
      rfl
    · rw [if_neg (fun same => all (sameQuantity.symm.trans same)), if_neg all, sameQuantity]
      exact congrArg some (symmetry.refill order (order.quantity - traded)).symm
  · rw [if_neg (fun same => named (sameId.symm.trans same)), if_neg named]
    rfl

theorem lives_reduce (symmetry : Symmetry image imageTrade domain) (lives : Lives domain live)
    (orderId : UInt64) (traded : UInt32) :
    Lives domain (live.filterMap (reduce orderId traded)) := by
  intro order member
  obtain ⟨before, inLive, reduced⟩ := List.mem_filterMap.mp member
  rw [reduce_eq_some reduced]
  exact ⟨symmetry.closed before _ (lives before inLive).1, (lives before inLive).2⟩

theorem traded_image (symmetry : Symmetry image imageTrade domain) (inDomain : domain state.order)
    {best : Order} (domainBest : domain best) (limit : best.type = .limit) :
    traded (state.image image imageTrade) (image best) =
      (traded state best).image image imageTrade := by
  have sameQuantity := symmetry.quantity state.order
  simp only [traded, MatchState.image]
  rw [sameQuantity, symmetry.quantity best, symmetry.id best, symmetry.filterMap_reduce,
    symmetry.trade _ _ _ _ inDomain domainBest limit, List.map_append, List.map_singleton]
  exact congrArg (fun order => MatchState.mk _ order _ _) (symmetry.refill state.order _).symm

/-- The matching loop runs alike on the images. -/
theorem matchLoop_image (symmetry : Symmetry image imageTrade domain) (fuel : Nat)
    (inDomain : domain state.order) (lives : Lives domain state.live) :
    matchLoop fuel (state.image image imageTrade) =
      (matchLoop fuel state).image image imageTrade := by
  induction fuel generalizing state with
  | zero => rfl
  | succ fuel ih =>
      have picked := symmetry.pickBest_image inDomain lives
      rw [matchLoop, matchLoop]
      cases step : matchStep state with
      | none =>
          have stop : matchStep (state.image image imageTrade) = none := by
            rw [matchStep_eq_none_iff] at step ⊢
            refine step.imp (fun zero => (symmetry.quantity _).trans zero) (fun empty => ?_)
            have same := symmetry.filter_accepts inDomain lives
            rw [empty] at same
            exact same
          rw [stop]
      | some next =>
          obtain ⟨opened, best, found, rfl⟩ := matchStep_eq_some_iff.mp step
          obtain ⟨domainBest, limit⟩ := lives best (pickBest_mem found).1
          have go : matchStep (state.image image imageTrade) =
              some ((traded state best).image image imageTrade) := by
            refine matchStep_eq_some_iff.mpr ⟨?_, image best, ?_, ?_⟩
            · exact (symmetry.quantity state.order).symm ▸ opened
            · exact picked.trans (by rw [found]; rfl)
            · exact (symmetry.traded_image inDomain domainBest limit).symm
          rw [go]
          exact ih (symmetry.closed _ _ inDomain) (symmetry.lives_reduce lives _ _)

end Symmetry

/-! ### Commands -/

/-- The second engine is the image of the first one, up to the sequence. -/
structure IsImage (image : Order → Order) (domain : Order → Prop) (engine engine' : Reference) :
    Prop where
  live : engine'.live = engine.live.map image
  lives : Lives domain engine.live
  risk : engine'.risk = engine.risk
  seen : engine'.seenOrderIds = engine.seenOrderIds
  nextTradeId : engine'.nextTradeId = engine.nextTradeId

/-- The second response is the image of the first one; it carries a sequence of its own. -/
structure Response.IsImage (image : Order → Order) (imageTrade : Trade → Trade)
    (domain : Order → Prop) (sequence : UInt64) (response response' : Response) : Prop where
  report : response'.report = { response.report with sequence := sequence }
  outTrades : response'.outTrades = response.outTrades.map imageTrade
  engine : Reference.IsImage image domain response.engine response'.engine

namespace IsImage

variable {image : Order → Order} {imageTrade : Trade → Trade} {domain : Order → Prop}
  {engine engine' : Reference} {order order' : Order} {sequence sequence' : UInt64}

/-- The orders that the two engines accept: once stamped, one is the image of the other. -/
structure Accepts (image : Order → Order) (domain : Order → Prop) (sequence sequence' : UInt64)
    (order order' : Order) : Prop where
  inDomain : domain { order with sequence := sequence }
  stamped : { order' with sequence := sequence' } = image { order with sequence := sequence }
  mayRest : order'.mayRest = order.mayRest

theorem matchEnd (symmetry : Symmetry image imageTrade domain)
    (related : IsImage image domain engine engine')
    (accepts : Accepts image domain (engine.sequence + 1) (engine'.sequence + 1) order order') :
    engine'.matchEnd order' [] = (engine.matchEnd order []).image image imageTrade := by
  have start : engine'.matchStart order' [] =
      (engine.matchStart order []).image image imageTrade := by
    rw [matchStart, accepts.stamped, related.live, related.nextTradeId]
    rfl
  rw [Reference.matchEnd, start, related.live, List.length_map]
  exact symmetry.matchLoop_image _ accepts.inDomain related.lives

theorem lives_execute (symmetry : Symmetry image imageTrade domain)
    (lives : Lives domain engine.live)
    (inDomain : domain { order with sequence := engine.sequence + 1 }) :
    Lives domain (engine.execute order []).engine.live := by
  have kept : Lives domain (engine.matchEnd order []).live := by
    intro live member
    obtain ⟨origin, inLive, same⟩ := exists_origin (engine.matchEnd_terms order []) member
    rw [Order.terms_eq_iff.mp same]
    exact ⟨symmetry.closed origin _ (lives origin inLive).1, (lives origin inLive).2⟩
  rcases engine.execute_engine order [] with same | ⟨mayRest, _, rested⟩
  · rw [same]
    exact kept
  · rw [rested]
    intro live member
    rcases List.mem_append.mp member with old | last
    · exact kept live old
    · rw [List.mem_singleton.mp last,
        Order.terms_eq_iff.mp (engine.matchEnd_order order [])]
      simp only [Order.mayRest, Bool.and_eq_true, decide_eq_true_eq] at mayRest
      exact ⟨symmetry.closed _ _ inDomain, mayRest.1⟩

theorem execute (symmetry : Symmetry image imageTrade domain)
    (related : IsImage image domain engine engine')
    (accepts : Accepts image domain (engine.sequence + 1) (engine'.sequence + 1) order order') :
    Response.IsImage image imageTrade domain (engine'.sequence + 1) (engine.execute order [])
      (engine'.execute order' []) := by
  have final := related.matchEnd symmetry accepts
  have sameId : order'.id = order.id :=
    (congrArg Order.id accepts.stamped).trans (symmetry.id _)
  have sameQuantity : order'.quantity = order.quantity :=
    (congrArg Order.quantity accepts.stamped).trans (symmetry.quantity _)
  refine ⟨?_, ?_, ?_⟩
  · simp only [Reference.execute, final, MatchState.image, symmetry.quantity,
      Reference.acceptedReport, sameId, sameQuantity, accepts.mayRest, List.length_map,
      List.length_nil]
  · rw [Reference.execute, final]
    rfl
  · refine ⟨?_, ?_, related.risk, ?_, ?_⟩
    · simp only [Reference.execute, final, MatchState.image, symmetry.quantity, accepts.mayRest]
      split
      · rw [List.map_append, List.map_singleton]
      · rfl
    · exact lives_execute symmetry related.lives accepts.inDomain
    · simp only [Reference.execute, sameId, related.seen]
    · rw [Reference.execute, final]
      rfl

theorem cancelTarget (symmetry : Symmetry image imageTrade domain)
    (related : IsImage image domain engine engine') (orderId : UInt64) :
    engine'.cancelTarget orderId = (engine.cancelTarget orderId).map image := by
  rw [Reference.cancelTarget, Reference.cancelTarget, related.live]
  split
  · rfl
  · rw [List.find?_map]
    simp only [Function.comp_def, symmetry.id]

theorem cancel (symmetry : Symmetry image imageTrade domain)
    (related : IsImage image domain engine engine') (orderId : UInt64) :
    Response.IsImage image imageTrade domain (engine'.sequence + 1) (engine.cancel orderId [])
      (engine'.cancel orderId []) := by
  have target := related.cancelTarget symmetry orderId
  cases found : engine.cancelTarget orderId with
  | none =>
      rw [found, Option.map_none] at target
      simp only [Reference.cancel, found, target]
      exact ⟨rfl, rfl, related.live, related.lives, related.risk, related.seen,
        related.nextTradeId⟩
  | some order =>
      rw [found, Option.map_some] at target
      simp only [Reference.cancel, found, target]
      refine ⟨?_, rfl, ?_, ?_, related.risk, related.seen, related.nextTradeId⟩
      · simp only [symmetry.quantity]
      · rw [related.live, List.filter_map]
        simp only [Function.comp_def, symmetry.id]
      · exact fun live member => related.lives live (List.mem_filter.mp member).1

/-- One command on both engines. They reject alike, and what the first one accepts the
second one accepts as its image. -/
theorem processOrder (symmetry : Symmetry image imageTrade domain)
    (related : IsImage image domain engine engine') {shortfall shortfall' : Bool}
    (sameReason : engine'.rejectReason order' shortfall' = engine.rejectReason order shortfall)
    (sameId : order'.id = order.id) (sameQuantity : order'.quantity = order.quantity)
    (accepts : engine.rejectReason order shortfall = .none →
      Accepts image domain (engine.sequence + 1) (engine'.sequence + 1) order order') :
    Response.IsImage image imageTrade domain (engine'.sequence + 1)
      (engine.processOrder order shortfall []) (engine'.processOrder order' shortfall' []) := by
  rw [Reference.processOrder, Reference.processOrder, sameReason]
  cases reason : engine.rejectReason order shortfall with
  | none => exact related.execute symmetry (accepts reason)
  | _ =>
      refine ⟨?_, rfl, related.live, related.lives, related.risk, related.seen,
        related.nextTradeId⟩
      simp only [rejectedReport, sameId, sameQuantity]

end IsImage

end Reference

end Lob
