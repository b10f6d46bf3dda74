import Lob.MatchingEngine.Counters
import Lob.Reference.Envelope
import Lob.Reference.History

/-!
# Generated orders

The order generators of `feed_handler`, `mpmc_matching_main` and `partitioned_matching_main`.
Each fills in a limit order from its distributions, and two of them then turn some of the
orders into other kinds. The values that the distributions return are arguments here: any
values within the bounds of the distribution.

An engine with the default limits has few reasons to reject what the generators make. The
second half of the module says which, for every run of generated orders and cancels.
-/

namespace Lob

/-- What the distributions of a generator return for one order. -/
structure Draw (low high : Int64) (most : UInt32) where
  buys : Bool
  price : Int64
  quantity : UInt32
  policy : Fin 100
  low_le : low ≤ price
  le_high : price ≤ high
  positive : 0 < quantity
  le_most : quantity ≤ most

variable {low high : Int64} {most : UInt32}

/-- The limit order with which every generator begins. -/
def Draw.limitOrder (draw : Draw low high most) (id : UInt64) : Order where
  id := id
  side := if draw.buys then .buy else .sell
  price := draw.price
  quantity := draw.quantity

/-- What the advanced modes make of a limit order. -/
def Order.withPolicy (order : Order) (policy : Fin 100) : Order :=
  if policy < 5 then { order with type := .market, timeInForce := .ioc, price := 0 }
  else if policy < 15 then { order with timeInForce := .ioc }
  else if policy < 20 then { order with timeInForce := .fok }
  else if policy < 25 then { order with flags := .postOnly }
  else order

/-- A generator with or without an advanced mode. -/
def Draw.order (draw : Draw low high most) (advanced : Bool) (id : UInt64) : Order :=
  if advanced then (draw.limitOrder id).withPolicy draw.policy else draw.limitOrder id

/-- `generateOrder` of `partitioned_matching_main`. -/
def generateOrder (id : UInt64) (draw : Draw 9950 10050 250) (advanced : Bool) : Order :=
  draw.order advanced id

/-- `SyntheticOrderGenerator::next` of `feed_handler`. -/
def SyntheticOrderGenerator.next (advanced : Bool) (id : UInt64) (draw : Draw 9900 10100 500) :
    Order :=
  draw.order advanced id

/-- The order that `producerThread` of `mpmc_matching_main` fills in. -/
def producerOrder (id : UInt64) (draw : Draw 9900 10100 100) : Order := draw.limitOrder id

/-! ### Ids -/

/-- So many ids, counted from one. -/
def firstIds (count : Nat) : List UInt64 :=
  (List.range count).map (fun i => UInt64.ofNat (i + 1))

theorem firstIds_succ (count : Nat) :
    firstIds (count + 1) = firstIds count ++ [UInt64.ofNat (count + 1)] := by
  rw [firstIds, List.range_succ, List.map_append, firstIds]
  rfl

@[simp] theorem length_firstIds (count : Nat) : (firstIds count).length = count := by
  rw [firstIds, List.length_map, List.length_range]

theorem nodup_firstIds {count : Nat} (fits : count < 2 ^ 64) : (firstIds count).Nodup := by
  refine List.Nodup.map_on ?_ List.nodup_range
  intro first inside second inside' same
  rw [List.mem_range] at inside inside'
  have values := congrArg UInt64.toNat same
  rw [UInt64.toNat_ofNat_of_lt' (show first + 1 < 2 ^ 64 by omega),
    UInt64.toNat_ofNat_of_lt' (show second + 1 < 2 ^ 64 by omega)] at values
  omega

theorem ne_zero_of_mem_firstIds {count : Nat} (fits : count < 2 ^ 64) {orderId : UInt64}
    (member : orderId ∈ firstIds count) : orderId ≠ 0 := by
  obtain ⟨i, inside, rfl⟩ := List.mem_map.mp member
  rw [List.mem_range] at inside
  intro zero
  have value := congrArg UInt64.toNat zero
  rw [UInt64.toNat_ofNat_of_lt' (show i + 1 < 2 ^ 64 by omega)] at value
  contradiction

/-! ### Ordinary commands -/

/-- An order that passes static validation and whose notional fits into 64 bits. -/
structure Order.Ordinary (order : Order) : Prop where
  valid : validateStatic order = .none
  fits : order.type = .limit → notional order.price order.quantity < 2 ^ 64

/-- An ordinary order, or a cancel that names an id. -/
def Command.Ordinary : Command → Prop
  | .newOrder order => order.Ordinary
  | .cancel orderId => orderId ≠ 0

/-- The answers to an ordinary order with a new id under the default limits. -/
def Order.possibleReasons (order : Order) : List RejectReason :=
  .none ::
    ((if hasFlag order.flags .postOnly then [.postOnlyWouldTrade] else []) ++
      if order.timeInForce = .fok then [.fokNotFillable] else [])

def Command.possibleReasons : Command → List RejectReason
  | .newOrder order => order.possibleReasons
  | .cancel _ => [.none, .orderNotFound]

/-- The report gives one of these answers, and counts as accepted if it gives no reason. -/
structure Command.Expects (command : Command) (report : ExecutionReport) : Prop where
  reason : report.rejectReason ∈ command.possibleReasons
  accepted : report.accepted = true ↔ report.rejectReason = .none

/-- The ids of the new orders among the commands. -/
def newIds (commands : List Command) : List UInt64 :=
  commands.filterMap (fun
    | .newOrder order => some order.id
    | .cancel _ => none)

@[simp] theorem newIds_append (front back : List Command) :
    newIds (front ++ back) = newIds front ++ newIds back := List.filterMap_append

/-! ### What the generators make -/

theorem Draw.price_pos (draw : Draw low high most) (positive : 0 < low) : 0 < draw.price :=
  Int64.lt_of_lt_of_le positive draw.low_le

theorem Draw.notional_le (draw : Draw low high most) (positive : 0 < low) :
    notional draw.price draw.quantity ≤ notional high most := by
  have price := Int64.le_iff_toInt_le.mp draw.le_high
  have quantity : (draw.quantity.toNat : Int) ≤ most.toNat := by
    exact_mod_cast UInt32.le_iff_toNat_le.mp draw.le_most
  have sign := toInt_pos (draw.price_pos positive)
  exact mul_le_mul price quantity (Int.natCast_nonneg _) (by omega)

variable {order : Order} {reference : Reference}

/-- Flags other than `POST_ONLY` are not set, and `POST_ONLY` only on an order that may rest. -/
theorem validateStatic_eq_none (valid : order.StaticallyValid)
    (market : order.type = .market → order.timeInForce ≠ .gtc)
    (flags : order.flags = .none ∨ order.flags = .postOnly ∧ order.mayRest = true) :
    validateStatic order = .none := by
  have price : ¬(order.type = .limit ∧ order.price ≤ 0) :=
    fun wrong => Int64.not_le.mpr (valid.price wrong.1) wrong.2
  have gtc : ¬(order.type = .market ∧ order.timeInForce = .gtc) :=
    fun wrong => market wrong.1 wrong.2
  have known : order.flags.byte &&& ~~~OrderFlags.postOnly.byte = 0 := by
    rcases flags with same | ⟨same, _⟩ <;> rw [same] <;> rfl
  have rests : ¬(hasFlag order.flags .postOnly = true ∧
      (order.type ≠ .limit ∨ order.timeInForce ≠ .gtc)) := by
    rintro ⟨flagged, wrong⟩
    rcases flags with same | ⟨_, mayRest⟩
    · rw [same] at flagged
      contradiction
    · obtain ⟨limit, tif⟩ := Order.mayRest_iff.mp mayRest
      exact wrong.elim (absurd limit) (absurd tif)
  simp only [validateStatic, valid.id, valid.side, valid.type, valid.timeInForce, known,
    valid.quantity, price, gtc, rests, Bool.not_true, Bool.false_eq_true, ne_eq, not_true_eq_false,
    if_false]

/-- A limit order of a generator, before a policy. -/
structure Order.Plain (order : Order) : Prop where
  valid : order.StaticallyValid
  mayRest : order.mayRest = true
  flags : order.flags = .none
  fits : notional order.price order.quantity < 2 ^ 64

theorem Draw.plain (draw : Draw low high most) (positive : 0 < low)
    (roomy : notional high most < 2 ^ 64) {id : UInt64} (nonzero : id ≠ 0) :
    (draw.limitOrder id).Plain where
  valid :=
    { id := nonzero
      side := by
        rw [Draw.limitOrder]
        cases draw.buys <;> rfl
      type := rfl
      timeInForce := rfl
      quantity := UInt32.pos_iff_ne_zero.mp draw.positive
      price := fun _ => draw.price_pos positive }
  mayRest := rfl
  flags := rfl
  fits := (draw.notional_le positive).trans_lt roomy

theorem Order.Plain.ordinary (plain : order.Plain) : order.Ordinary := by
  obtain ⟨limit, _⟩ := Order.mayRest_iff.mp plain.mayRest
  refine ⟨validateStatic_eq_none plain.valid ?_ (.inl plain.flags), fun _ => plain.fits⟩
  intro market
  exact absurd (limit.symm.trans market) OrderType.limit_ne_market

/-- Every policy makes an ordinary order of a plain one. -/
theorem Order.Plain.ordinary_withPolicy (plain : order.Plain) (policy : Fin 100) :
    (order.withPolicy policy).Ordinary := by
  obtain ⟨limit, _⟩ := Order.mayRest_iff.mp plain.mayRest
  have valid := plain.valid
  unfold Order.withPolicy
  split
  · refine ⟨validateStatic_eq_none ?_ (fun _ => TimeInForce.gtc_ne_ioc.symm) (.inl plain.flags), ?_⟩
    · exact { valid with
        type := rfl, timeInForce := rfl
        price := fun wrong => absurd wrong.symm OrderType.limit_ne_market }
    · exact fun wrong => absurd wrong.symm OrderType.limit_ne_market
  · split
    · refine ⟨validateStatic_eq_none { valid with timeInForce := rfl } ?_ (.inl plain.flags), ?_⟩
      · exact fun _ => TimeInForce.gtc_ne_ioc.symm
      · exact fun _ => plain.fits
    · split
      · refine ⟨validateStatic_eq_none { valid with timeInForce := rfl } ?_ (.inl plain.flags), ?_⟩
        · exact fun _ => TimeInForce.gtc_ne_fok.symm
        · exact fun _ => plain.fits
      · split
        · refine ⟨validateStatic_eq_none { valid with } ?_ (.inr ⟨rfl, plain.mayRest⟩), ?_⟩
          · exact fun market => absurd (limit.symm.trans market) OrderType.limit_ne_market
          · exact fun _ => plain.fits
        · exact plain.ordinary

theorem Draw.ordinary (draw : Draw low high most) (positive : 0 < low)
    (roomy : notional high most < 2 ^ 64) (advanced : Bool) {id : UInt64} (nonzero : id ≠ 0) :
    (draw.order advanced id).Ordinary := by
  have plain := draw.plain positive roomy nonzero
  rw [Draw.order]
  split
  · exact plain.ordinary_withPolicy draw.policy
  · exact plain.ordinary

/-- A policy leaves the id alone. -/
@[simp] theorem Draw.order_id (draw : Draw low high most) (advanced : Bool) (id : UInt64) :
    (draw.order advanced id).id = id := by
  rw [Draw.order]
  split
  · unfold Order.withPolicy
    repeat' split
    all_goals rfl
  · rfl

/-- Without a policy the only answer to a generated order is its acceptance. -/
theorem Order.Plain.possibleReasons (plain : order.Plain) :
    order.possibleReasons = [.none] := by
  obtain ⟨_, gtc⟩ := Order.mayRest_iff.mp plain.mayRest
  rw [Order.possibleReasons, plain.flags, gtc]
  rfl

/-! ### The default limits -/

/-- The book has room: distinct nonzero ids are fewer than `2 ^ 64`. -/
theorem Reference.Sound.length_lt (sound : reference.Sound) {orderId : UInt64}
    (nonzero : orderId ≠ 0) (new : orderId ∉ reference.seenOrderIds) :
    reference.live.length < 2 ^ 64 - 1 := by
  have distinct : (0 :: orderId :: reference.live.map Order.id).Nodup := by
    refine List.nodup_cons.mpr ⟨?_, List.nodup_cons.mpr ⟨?_, sound.ids⟩⟩
    · rintro (_ | ⟨_, member⟩)
      · exact nonzero rfl
      · obtain ⟨order, live, same⟩ := List.mem_map.mp member
        exact (sound.restable order live).id same
    · intro member
      obtain ⟨order, live, same⟩ := List.mem_map.mp member
      exact new (same ▸ sound.seen order live)
  have injective : Function.Injective UInt64.toFin := fun _ _ => UInt64.toFin_inj.mp
  have fits := (distinct.map injective).length_le_card
  rw [Fintype.card_fin, List.length_map, List.length_cons, List.length_cons, List.length_map]
    at fits
  have size : UInt64.size = 2 ^ 64 := rfl
  omega

theorem RiskManager.validate_default {activeOrders : Nat} {mayAdd : Bool}
    (ordinary : order.Ordinary) (room : activeOrders < 2 ^ 64 - 1) :
    ({} : RiskManager).validate order activeOrders mayAdd = .none := by
  have valid := staticallyValid_of_validateStatic ordinary.valid
  have quantity : ¬order.quantity > ({} : RiskLimits).maxOrderQuantity :=
    UInt32.not_lt.mpr (UInt32.le_iff_toNat_le.mpr (Nat.le_of_lt_succ order.quantity.toNat_lt))
  have price : ¬(order.type = .limit ∧ (order.price < ({} : RiskLimits).minLimitPrice ∨
      order.price > ({} : RiskLimits).maxLimitPrice)) := by
    rintro ⟨limit, below | above⟩
    · have positive := toInt_pos (valid.price limit)
      have small := Int64.lt_iff_toInt_lt.mp below
      have one : (({} : RiskLimits).minLimitPrice).toInt = 1 := rfl
      omega
    · exact Int64.not_lt.mpr (Int64.le_maxValue _) above
  have product : ¬(order.type = .limit ∧ order.quantity ≠ 0 ∧
      order.price.toUInt64 > ({} : RiskLimits).maxOrderNotional / order.quantity.toUInt64) := by
    rintro ⟨limit, _, exceeds⟩
    have above := (notional_test (valid.price limit) valid.quantity _).mp exceeds
    have fits := ordinary.fits limit
    have most : ((({} : RiskLimits).maxOrderNotional).toNat : Int) = 2 ^ 64 - 1 := rfl
    omega
  have active : ¬(mayAdd = true ∧ activeOrders ≥ ({} : RiskLimits).maxActiveOrders.toNat) :=
    fun full => Nat.not_le.mpr room full.2
  simp only [RiskManager.validate, quantity, price, product, active, Bool.false_eq_true, if_false]

/-- Under the default limits an ordinary order with a new id is turned away for its own flag or
its own time in force only. -/
theorem Reference.rejectReason_mem (sound : reference.Sound) (risk : reference.risk = {})
    (ordinary : order.Ordinary) (new : order.id ∉ reference.seenOrderIds) (shortfall : Bool) :
    reference.rejectReason order shortfall ∈ order.possibleReasons := by
  have nonzero := (staticallyValid_of_validateStatic ordinary.valid).id
  have admitted : ({} : RiskManager).validate order reference.live.length
      (order.mayRest && shortfall) = .none :=
    RiskManager.validate_default ordinary (sound.length_lt nonzero new)
  rw [Reference.rejectReason, risk]
  simp only [ordinary.valid, new, admitted, ne_eq, not_true_eq_false, if_false]
  split
  · rename_i crossed
    rw [Bool.and_eq_true] at crossed
    simp [Order.possibleReasons, crossed.1]
  · split
    · rename_i short
      simp [Order.possibleReasons, short.1]
    · exact List.mem_cons_self

theorem Reference.Step.accepted_iff {outTrades : List Trade} {command : Command} {shortfall : Bool}
    {response : Reference.Response} (step : reference.Step outTrades command shortfall response) :
    response.report.accepted = true ↔ response.report.rejectReason = .none := by
  cases step with
  | rejected refused failed =>
      refine ⟨fun accepted => ?_, fun none => absurd none failed⟩
      simp [Reference.rejectedReport, ExecutionReport.accepted] at accepted
  | accepted passed =>
      exact ⟨fun _ => rfl, fun _ => reference.accepted_execute _ _⟩
  | missing absent =>
      dsimp only
      split <;> simp [ExecutionReport.accepted]
  | canceled found => exact ⟨fun _ => rfl, fun _ => rfl⟩

namespace MatchingEngine

variable {engine : MatchingEngine} {command : Command} {response : Response}

/-- One ordinary command, its answer, and which ids the engine has seen after it. -/
theorem Consistent.expects (consistent : engine.Consistent) (risk : engine.risk = {})
    (ordinary : command.Ordinary)
    (new : ∀ orderId ∈ newIds [command], orderId ∉ engine.seenOrderIds)
    (applied : engine.apply command [] = .ok response) :
    command.Expects response.report ∧ response.engine.risk = {} ∧
      ∀ orderId ∈ response.engine.seenOrderIds,
        orderId ∈ engine.seenOrderIds ∨ orderId ∈ newIds [command] := by
  obtain ⟨reference, ⟨nodes, sim⟩, sound⟩ := consistent
  have agrees := Simulates.agrees ⟨nodes, sim⟩ sound applied
  obtain ⟨nodes', sim'⟩ := agrees.engine
  rw [agrees.report, sim'.risk, sim'.seen, sim.seen]
  rw [sim.risk] at risk
  rw [sim.seen] at new
  have step := reference.applyWith_step command (engine.shortfall command) []
  generalize reference.applyWith command (engine.shortfall command) [] = expected at step ⊢
  refine ⟨⟨?_, step.accepted_iff⟩, step.risk.trans risk, ?_⟩
  · cases step with
    | rejected refused failed =>
        rw [Reference.rejectedReport, ← refused]
        exact Reference.rejectReason_mem sound risk ordinary (new _ List.mem_cons_self) _
    | accepted passed => exact List.mem_cons_self
    | missing absent =>
        dsimp only
        rw [if_neg ordinary]
        exact List.mem_cons_of_mem _ List.mem_cons_self
    | canceled found => exact List.mem_cons_self
  · intro orderId seen
    rw [step.seenOrderIds_eq, Finset.mem_union, List.mem_toFinset] at seen
    refine seen.imp_right (fun named => ?_)
    obtain ⟨order, accepted, rfl⟩ := Option.map_eq_some_iff.mp (Option.mem_toList.mp named)
    rw [(step.acceptedOrder_eq_some_iff.mp accepted).1]
    exact List.mem_cons_self

/-- The answers to a run of ordinary commands under the default limits, the new orders of which
have ids of their own. -/
theorem Consistent.forall_expects {commands : List Command} {answers : List Response}
    (consistent : engine.Consistent) (risk : engine.risk = {})
    (ordinary : ∀ command ∈ commands, command.Ordinary)
    (distinct : (newIds commands).Nodup)
    (new : ∀ orderId ∈ newIds commands, orderId ∉ engine.seenOrderIds)
    (run : engine.responses commands = .ok answers) :
    List.Forall₂ (fun command answer => command.Expects answer.report) commands answers := by
  induction commands generalizing engine answers with
  | nil =>
      obtain rfl := Except.ok.inj run
      exact .nil
  | cons command commands ih =>
      obtain ⟨answer, later, rfl, applied, rest⟩ := responses_cons run
      rw [← List.singleton_append, newIds_append] at distinct new
      obtain ⟨_, distinct', apart⟩ := List.nodup_append.mp distinct
      have consistent' := consistent.of_apply applied
      obtain ⟨reason, risk', seen⟩ := consistent.expects risk (ordinary _ List.mem_cons_self)
        (fun orderId member => new orderId (List.mem_append_left _ member)) applied
      refine .cons reason (ih consistent' risk'
        (fun other member => ordinary other (List.mem_cons_of_mem _ member)) distinct' ?_ rest)
      intro orderId member known
      rcases seen orderId known with before | same
      · exact new orderId (List.mem_append_right _ member) before
      · exact apart orderId same orderId member rfl

end MatchingEngine

end Lob
