import Lob.MatchingEngine.History

/-!
# The preflight and the execution

Before it accepts an order, `processOrder` asks `executableQuantity` how much of it could
trade at once. The answer decides `may_add_active_order` for the risk check and whether an
FOK order is fillable. The preflight walks cached level totals under a cap, while the
matching loop walks single orders and changes the book. In the states of short runs the
totals are exact, and both arrive at the same quantity: the loop takes from the order what
it takes from the acceptable live orders, and it ends when one of the two is used up.

The loop looks at neither the time in force nor the flags of the incoming order. Variants
of an order that differ only in these make the same trades.
-/

namespace Lob

/-- The order with another time in force and other flags. -/
def Order.relabel (order : Order) (timeInForce : TimeInForce) (flags : OrderFlags) : Order :=
  { order with timeInForce, flags }

namespace MatchingEngine

/-! ### The reject exits -/

/-- `may_add_active_order` of `processOrder`. -/
def mayAddActiveOrder (engine : MatchingEngine) (order : Order) : Bool :=
  order.mayRest && decide (engine.book.executableQuantity order order.quantity.toUInt64 <
    order.quantity.toUInt64)

/-- The answer that `processOrder` gets from the risk check. -/
def riskReason (engine : MatchingEngine) (order : Order) : RejectReason :=
  engine.risk.validate order engine.book.orderCount (engine.mayAddActiveOrder order)

/-- The order passes the static, duplicate and risk checks. -/
structure Admits (engine : MatchingEngine) (order : Order) : Prop where
  static : validateStatic order = .none
  new : order.id ∉ engine.seenOrderIds
  risk : engine.riskReason order = .none

instance (engine : MatchingEngine) (order : Order) : Decidable (engine.Admits order) :=
  decidable_of_iff (validateStatic order = .none ∧ order.id ∉ engine.seenOrderIds ∧
      engine.riskReason order = .none)
    ⟨fun checks => ⟨checks.1, checks.2.1, checks.2.2⟩,
      fun admits => ⟨admits.static, admits.new, admits.risk⟩⟩

theorem rejectReason_eq (engine : MatchingEngine) (order : Order) :
    engine.rejectReason order =
      if validateStatic order ≠ .none then validateStatic order
      else if order.id ∈ engine.seenOrderIds then .duplicateOrderId
      else if engine.riskReason order ≠ .none then engine.riskReason order
      else if hasFlag order.flags .postOnly && engine.book.wouldCross order then
        .postOnlyWouldTrade
      else if order.timeInForce = .fok ∧
          engine.book.executableQuantity order order.quantity.toUInt64 <
            order.quantity.toUInt64 then .fokNotFillable
      else .none := rfl

variable {engine : MatchingEngine} {order : Order}

/-- What is left to check of an admitted order. -/
theorem Admits.rejectReason_eq (admits : engine.Admits order) :
    engine.rejectReason order =
      if hasFlag order.flags .postOnly && engine.book.wouldCross order then .postOnlyWouldTrade
      else if order.timeInForce = .fok ∧
          engine.book.executableQuantity order order.quantity.toUInt64 <
            order.quantity.toUInt64 then .fokNotFillable
      else .none := by
  rw [MatchingEngine.rejectReason_eq, if_neg (not_not.mpr admits.static), if_neg admits.new,
    if_neg (not_not.mpr admits.risk)]

/-- Static validation lets no order through that is post-only but not GTC. -/
theorem not_postOnly_of_validateStatic (valid : validateStatic order = .none)
    (notGtc : order.timeInForce ≠ .gtc) : hasFlag order.flags .postOnly = false := by
  by_contra flagged
  rw [Bool.not_eq_false] at flagged
  unfold validateStatic at valid
  repeat' split at valid
  all_goals first | contradiction | skip
  rename_i _ postOnly
  exact postOnly ⟨flagged, Or.inr notGtc⟩

theorem processOrder_of_passed (passed : engine.rejectReason order = .none)
    (outTrades : List Trade) :
    engine.processOrder order outTrades =
      { engine with sequence := engine.sequence + 1 }.execute order (engine.sequence + 1)
        outTrades := by
  have passed' : { engine with sequence := engine.sequence + 1 }.rejectReason order = .none :=
    passed
  simp only [processOrder, passed']

/-! ### Variants of an order -/

/-- The loop state with another time in force and other flags on the incoming order. -/
def MatchState.relabel (timeInForce : TimeInForce) (flags : OrderFlags) (state : MatchState) :
    MatchState := { state with order := state.order.relabel timeInForce flags }

theorem matchStep_relabel (timeInForce : TimeInForce) (flags : OrderFlags) (state : MatchState) :
    matchStep (state.relabel timeInForce flags) =
      (matchStep state).map (Option.map (MatchState.relabel timeInForce flags)) := by
  have same : ∀ best, (state.order.relabel timeInForce flags).crosses best =
      state.order.crosses best := fun _ => rfl
  have sameSide : (state.order.relabel timeInForce flags).opposite = state.order.opposite := rfl
  have sameQuantity : (state.order.relabel timeInForce flags).quantity = state.order.quantity :=
    rfl
  simp only [matchStep, MatchState.relabel, same, sameSide, sameQuantity]
  by_cases going : state.order.quantity > 0 ∧ state.book.emptySide state.order.opposite = false
  · simp only [going, and_self, if_true]
    cases state.book.frontOfBest state.order.opposite with
    | none => rfl
    | some best =>
        by_cases crosses : state.order.crosses best = true
        · simp only [crosses, if_true, bind, Except.bind, pure, Except.pure]
          cases state.book.reduceFront state.order.opposite
              (min state.order.quantity best.quantity) with
          | error fault => rfl
          | ok book => rfl
        · simp only [crosses, if_false, Bool.false_eq_true]
          rfl
  · simp only [going, if_false]
    rfl

theorem matchLoop_relabel (timeInForce : TimeInForce) (flags : OrderFlags) (fuel : Nat)
    (state : MatchState) :
    matchLoop fuel (state.relabel timeInForce flags) =
      (matchLoop fuel state).map (MatchState.relabel timeInForce flags) := by
  induction fuel generalizing state with
  | zero => rfl
  | succ fuel ih =>
      simp only [matchLoop, matchStep_relabel, bind, Except.bind]
      cases matchStep state with
      | error fault => rfl
      | ok next =>
          cases next with
          | none => rfl
          | some next => exact ih next

/-- Variants that never rest are executed alike. -/
theorem execute_relabel (order : Order) (timeInForce : TimeInForce) (flags : OrderFlags)
    (leaves : order.mayRest = false) (leaves' : (order.relabel timeInForce flags).mayRest = false)
    (sequence : UInt64) (outTrades : List Trade) :
    engine.execute (order.relabel timeInForce flags) sequence outTrades =
      engine.execute order sequence outTrades := by
  have loop := matchLoop_relabel timeInForce flags engine.book.orderCount
    ⟨engine.book, { order with sequence }, engine.nextTradeId, outTrades⟩
  have start : ({ order.relabel timeInForce flags with sequence } : Order) =
      Order.relabel { order with sequence } timeInForce flags := rfl
  simp only [MatchState.relabel] at loop
  simp only [execute, start, loop, bind, Except.bind]
  cases matchLoop engine.book.orderCount
    ⟨engine.book, { order with sequence }, engine.nextTradeId, outTrades⟩ with
  | error fault => rfl
  | ok state =>
      simp only [Except.map, MatchState.relabel, leaves, leaves', Bool.false_eq_true, and_false,
        if_false, acceptedReport]
      rfl

end MatchingEngine

/-! ### The executed quantity -/

section Executed

variable {engine : MatchingEngine} {reference : Reference} {order : Order}

theorem Simulates.executableQuantity_toNat (sim : Simulates engine reference)
    (few : reference.live.length < 2 ^ 32) {order : Order} (valid : order.StaticallyValid) :
    (engine.book.executableQuantity order order.quantity.toUInt64).toNat =
      min order.quantity.toNat (Reference.acceptableQuantity reference.live order) := by
  obtain ⟨_, simOn⟩ := sim
  exact simOn.executableQuantity_toNat few valid

/-- An accepted order is executed as the reference executes it. -/
theorem Simulates.execute (sim : Simulates engine reference) (sound : reference.Sound)
    (passed : engine.rejectReason order = .none) (outTrades : List Trade) :
    reference.Passed order (engine.shortfall (.newOrder order)) ∧
      ∃ response, engine.processOrder order outTrades = .ok response ∧
        Agrees response (reference.execute order outTrades) := by
  obtain ⟨nodes, sim⟩ := sim
  have passed' := (sim.rejectReason_eq order).symm.trans passed
  obtain ⟨response, processed, agrees⟩ := sim.processOrder sound order outTrades
  rw [Reference.processOrder, passed'] at agrees
  exact ⟨Reference.passed_of_rejectReason passed', response, processed, agrees⟩

/-- The id of an accepted order is live afterwards exactly when a remainder may rest. -/
theorem Reference.exists_id_execute_iff (sound : reference.Sound) {shortfall : Bool}
    (passed : reference.Passed order shortfall) (outTrades : List Trade) :
    (∃ live ∈ (reference.execute order outTrades).engine.live, live.id = order.id) ↔
      order.mayRest = true ∧ (reference.matchEnd order outTrades).order.quantity ≠ 0 := by
  have new := sound.new_of_passed passed outTrades
  simp only [execute]
  by_cases rests : (reference.matchEnd order outTrades).order.quantity > 0 ∧ order.mayRest = true
  · rw [if_pos rests]
    refine iff_of_true ⟨_, List.mem_append_right _ (List.mem_singleton_self _), ?_⟩
      ⟨rests.2, UInt32.pos_iff_ne_zero.mp rests.1⟩
    exact reference.matchEnd_order_id order outTrades
  · rw [if_neg rests]
    refine iff_of_false ?_ ?_
    · rintro ⟨live, member, same⟩
      exact new live member same
    · rintro ⟨mayRest, positive⟩
      exact rests ⟨UInt32.pos_iff_ne_zero.mpr positive, mayRest⟩

/-- What the preflight says about an accepted order comes true. -/
structure Foretold (engine : MatchingEngine) (order : Order) (response : Response) : Prop where
  executed : response.report.executedQuantity.toUInt64 =
    engine.book.executableQuantity order order.quantity.toUInt64
  remains : response.report.remainingQuantity ≠ 0 ↔
    engine.book.executableQuantity order order.quantity.toUInt64 < order.quantity.toUInt64
  rests : response.engine.book.contains order.id = true ↔ engine.mayAddActiveOrder order = true

theorem Simulates.foretold (sim : Simulates engine reference) (sound : reference.Sound)
    (few : reference.live.length < 2 ^ 32) {shortfall : Bool}
    (passed : reference.Passed order shortfall) {outTrades : List Trade} {response : Response}
    (agrees : Agrees response (reference.execute order outTrades)) :
    Foretold engine order response := by
  have executable := sim.executableQuantity_toNat few passed.valid
  have remaining := Reference.matchEnd_remaining sound order outTrades
  have left : response.report.remainingQuantity =
      (reference.matchEnd order outTrades).order.quantity := by rw [agrees.report]; rfl
  have spent : response.report.executedQuantity =
      order.quantity - (reference.matchEnd order outTrades).order.quantity := by
    rw [agrees.report]; rfl
  have part : (reference.matchEnd order outTrades).order.quantity ≤ order.quantity := by
    rw [UInt32.le_iff_toNat_le]
    omega
  have remains : response.report.remainingQuantity ≠ 0 ↔
      engine.book.executableQuantity order order.quantity.toUInt64 <
        order.quantity.toUInt64 := by
    rw [left, Ne, ← UInt32.toNat_inj, UInt32.toNat_zero, UInt64.lt_iff_toNat_lt, executable,
      UInt32.toNat_toUInt64, remaining]
    omega
  refine ⟨?_, remains, ?_⟩
  · apply UInt64.toNat.inj
    rw [spent, UInt32.toNat_toUInt64, UInt32.toNat_sub_of_le _ _ part, executable, remaining]
    omega
  · rw [agrees.engine.contains_iff, Reference.exists_id_execute_iff sound passed, ← left, remains,
      MatchingEngine.mayAddActiveOrder, Bool.and_eq_true, decide_eq_true_eq]

end Executed

/-! ### Fill or kill -/

section FillOrKill

variable {engine : MatchingEngine} {reference : Reference} {order : Order}

/-- The two variants of an order that are executed at once or not at all. -/
def Order.ioc (order : Order) : Order := { order with timeInForce := .ioc }

def Order.fok (order : Order) : Order := { order with timeInForce := .fok }

theorem MatchingEngine.Admits.rejectReason_ioc (admits : engine.Admits order.ioc) :
    engine.rejectReason order.ioc = .none := by
  have plain := not_postOnly_of_validateStatic admits.static TimeInForce.gtc_ne_ioc.symm
  rw [admits.rejectReason_eq, plain, Bool.false_and, if_neg Bool.false_ne_true, if_neg]
  exact fun short => TimeInForce.ioc_ne_fok short.1

theorem MatchingEngine.Admits.rejectReason_fok (admits : engine.Admits order.fok) :
    engine.rejectReason order.fok =
      if engine.book.executableQuantity order order.quantity.toUInt64 <
        order.quantity.toUInt64 then .fokNotFillable else .none := by
  have plain := not_postOnly_of_validateStatic admits.static TimeInForce.gtc_ne_fok.symm
  have fok : order.fok.timeInForce = .fok := rfl
  rw [admits.rejectReason_eq, plain, Bool.false_and, if_neg Bool.false_ne_true]
  simp only [fok, true_and]
  rfl

/-- The FOK variant is killed when the IOC variant would leave a remainder, and is the IOC
variant otherwise. -/
theorem Simulates.ioc_fok (sim : Simulates engine reference) (sound : reference.Sound)
    (few : reference.live.length < 2 ^ 32) (iocAdmits : engine.Admits order.ioc)
    (fokAdmits : engine.Admits order.fok) (outTrades : List Trade) :
    ∃ ioc fok, engine.processOrder order.ioc outTrades = .ok ioc ∧
      engine.processOrder order.fok outTrades = .ok fok ∧ ioc.report.accepted = true ∧
      (fok.report.rejectReason = .fokNotFillable ↔ ioc.report.remainingQuantity ≠ 0) ∧
      (ioc.report.remainingQuantity = 0 → fok = ioc ∧ fok.report.status = .filled) := by
  have iocPassed := iocAdmits.rejectReason_ioc
  obtain ⟨passed, ioc, iocProcessed, agrees⟩ := sim.execute sound iocPassed outTrades
  have foretold := sim.foretold sound few passed agrees
  have accepted : ioc.report.accepted = true := by
    rw [agrees.report]
    exact reference.accepted_execute _ _
  have reason := fokAdmits.rejectReason_fok
  by_cases short : engine.book.executableQuantity order order.quantity.toUInt64 <
      order.quantity.toUInt64
  · rw [if_pos short] at reason
    have remains : ioc.report.remainingQuantity ≠ 0 := foretold.remains.mpr short
    refine ⟨ioc, _, iocProcessed, processOrder_of_rejected reason (by decide) outTrades, accepted,
      iff_of_true rfl remains, fun zero => absurd zero remains⟩
  · rw [if_neg short] at reason
    have zero : ioc.report.remainingQuantity = 0 :=
      not_not.mp (fun remains => short (foretold.remains.mp remains))
    -- both variants are executed, and the loop cannot tell them apart
    have same : engine.processOrder order.fok outTrades = .ok ioc := by
      rw [← iocProcessed, MatchingEngine.processOrder_of_passed reason,
        MatchingEngine.processOrder_of_passed iocPassed]
      exact MatchingEngine.execute_relabel order.ioc .fok order.flags
        (by simp [Order.mayRest, Order.ioc, TimeInForce.gtc_ne_ioc.symm])
        (by simp [Order.mayRest, Order.relabel, TimeInForce.gtc_ne_fok.symm]) _ _
    have noReason : ioc.report.rejectReason = .none := by rw [agrees.report]; rfl
    have filled : ioc.report.status = .filled := by
      rw [agrees.report] at zero ⊢
      exact if_pos zero
    refine ⟨ioc, ioc, iocProcessed, same, accepted, ?_, fun _ => ⟨rfl, filled⟩⟩
    rw [noReason]
    exact iff_of_false RejectReason.noConfusion (not_not.mpr zero)

end FillOrKill

/-! ### The states of short runs -/

theorem rejectReason_of_accepted {engine : MatchingEngine} {order : Order}
    {outTrades : List Trade} {response : Response}
    (processed : engine.processOrder order outTrades = .ok response)
    (accepted : response.report.accepted = true) : engine.rejectReason order = .none := by
  by_contra failed
  rw [processOrder_of_rejected rfl failed] at processed
  rw [← Except.ok.inj processed] at accepted
  exact absurd accepted (by simp [MatchingEngine.rejectedReport, ExecutionReport.accepted])

/-- The preflight equals the execution. In every state of a short run, an accepted order
executes what `executableQuantity` says and rests exactly when the risk check was told that
it may add an active order. The FOK variant of an order is rejected exactly when the IOC
variant leaves a remainder; otherwise the two are indistinguishable. -/
theorem preflight_matches_execution (limits : RiskLimits) (commands : List Command)
    (short : commands.length < 2 ^ 32) :
    ∃ engine, (MatchingEngine.fresh limits).runAll commands = .ok engine ∧
      (∀ order outTrades, ∃ response, engine.processOrder order outTrades = .ok response ∧
        (response.report.accepted = true →
          response.report.executedQuantity.toUInt64 =
            engine.book.executableQuantity order order.quantity.toUInt64 ∧
          (response.engine.book.contains order.id = true ↔
            order.type = .limit ∧ order.timeInForce = .gtc ∧
              engine.book.executableQuantity order order.quantity.toUInt64 <
                order.quantity.toUInt64) ∧
          (response.engine.book.contains order.id = true ↔
            engine.mayAddActiveOrder order = true))) ∧
      ∀ (order : Order) outTrades, engine.Admits order.ioc → engine.Admits order.fok →
        ∃ ioc fok, engine.processOrder order.ioc outTrades = .ok ioc ∧
          engine.processOrder order.fok outTrades = .ok fok ∧ ioc.report.accepted = true ∧
          (fok.report.rejectReason = .fokNotFillable ↔ ioc.report.remainingQuantity ≠ 0) ∧
          (ioc.report.remainingQuantity = 0 → fok = ioc ∧ fok.report.status = .filled) := by
  obtain ⟨engine, reference, reached, sim, sound, few⟩ := exists_refines limits commands short
  refine ⟨engine, reached, ?_, ?_⟩
  · intro order outTrades
    obtain ⟨response, processed, _⟩ := sim.apply sound (.newOrder order) outTrades
    refine ⟨response, processed, ?_⟩
    intro accepted
    have reason := rejectReason_of_accepted processed accepted
    obtain ⟨passed, response', processed', agrees⟩ := sim.execute sound reason outTrades
    obtain rfl := Except.ok.inj (processed.symm.trans processed')
    have foretold := sim.foretold sound few passed agrees
    refine ⟨foretold.executed, ?_, foretold.rests⟩
    rw [foretold.rests, MatchingEngine.mayAddActiveOrder, Bool.and_eq_true, Order.mayRest_iff,
      decide_eq_true_eq, and_assoc]
  · intro order outTrades iocAdmits fokAdmits
    exact sim.ioc_fok sound few iocAdmits fokAdmits outTrades

/-- Against a resting SELL of ten lots, an FOK order for twelve lots is admitted, and it is
killed exactly if its IOC variant leaves a remainder. -/
theorem preflight_matches_execution_twelve :
    let commands : List Command :=
      [.newOrder { id := 1, side := .sell, price := 100, quantity := 10 }]
    let order : Order := { id := 2, side := .buy, price := 101, quantity := 12 }
    ∃ engine, (MatchingEngine.fresh {}).runAll commands = .ok engine ∧
      ∃ ioc fok, engine.processOrder order.ioc [] = .ok ioc ∧
        engine.processOrder order.fok [] = .ok fok ∧
        (fok.report.rejectReason = .fokNotFillable ↔ ioc.report.remainingQuantity ≠ 0) := by
  intro commands order
  obtain ⟨engine, reached, _, variants⟩ := preflight_matches_execution {} commands (by decide)
  have checks : ((MatchingEngine.fresh {}).runAll commands).map (fun engine =>
      decide (engine.Admits order.ioc ∧ engine.Admits order.fok)) = .ok true := by decide +kernel
  rw [reached] at checks
  obtain ⟨iocAdmits, fokAdmits⟩ := of_decide_eq_true (Except.ok.inj checks)
  obtain ⟨ioc, fok, processed, processed', _, killed, _⟩ := variants order [] iocAdmits fokAdmits
  exact ⟨engine, reached, ioc, fok, processed, processed', killed⟩

end Lob
