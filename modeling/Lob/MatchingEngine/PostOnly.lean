import Lob.MatchingEngine.Preflight
import Lob.Reference.Trades

/-!
# Post-only orders

Three pieces of code decide whether an order meets the other side: `wouldCross` on the
best order, the walk over levels in `executableQuantity`, and the price test of the
matching loop. On the live list all three ask for an acceptable order, so they agree in
every state of a short run. A POST_ONLY order is therefore rejected exactly when its
unflagged variant would trade. Otherwise neither trades, both rest, and the books differ
in the stored flag only.
-/

namespace Lob

/-! ### Changing stored orders -/

/-- Change every order of a level. -/
def PriceLevel.mapOrders (change : Order → Order) (level : PriceLevel) : PriceLevel :=
  { level with
    orders := level.orders.map (fun node => { node with order := change node.order }) }

/-- Change every order of a book. -/
def OrderBook.mapOrders (change : Order → Order) (book : OrderBook) : OrderBook :=
  { book with
    buyLevels := book.buyLevels.mapValues (PriceLevel.mapOrders change)
    sellLevels := book.sellLevels.mapValues (PriceLevel.mapOrders change) }

/-- The book with other flags on the stored order of an id. -/
def OrderBook.setFlags (book : OrderBook) (orderId : UInt64) (flags : OrderFlags) : OrderBook :=
  book.mapOrders (fun order => if order.id = orderId then { order with flags } else order)

section Levels

variable {lt : Int64 → Int64 → Prop} {change : Order → Order}

theorem LevelMap.mapValues_of_fixed {levels : LevelMap lt}
    (fixed : ∀ node ∈ LevelMap.nodes levels, change node.order = node.order) :
    levels.mapValues (PriceLevel.mapOrders change) = levels := by
  apply OrderedMap.mapValues_of_fixed
  intro entry member
  have same : ∀ node ∈ entry.2.orders,
      ({ node with order := change node.order } : OrderNode) = id node := by
    intro node inLevel
    rw [fixed node (List.mem_flatMap.mpr ⟨entry, member, inLevel⟩)]
    rfl
  rw [PriceLevel.mapOrders, List.map_congr_left same, List.map_id]

/-- The change of a new node is the append of the changed node. -/
theorem LevelMap.mapValues_pushBack [DecidableRel lt] [IsStrictTotalOrder Int64 lt]
    {levels : LevelMap lt}
    (fixed : ∀ node ∈ LevelMap.nodes levels, change node.order = node.order) (price : Int64)
    (node : OrderNode) (sameQuantity : (change node.order).quantity = node.order.quantity) :
    (LevelMap.pushBack levels price node).mapValues (PriceLevel.mapOrders change) =
      LevelMap.pushBack levels price { node with order := change node.order } := by
  rw [LevelMap.pushBack, OrderedMap.mapValues_upsert, LevelMap.mapValues_of_fixed fixed]
  · rfl
  · intro old
    cases old with
    | none => simp [PriceLevel.mapOrders, PriceLevel.pushBack, sameQuantity]
    | some level => simp [PriceLevel.mapOrders, PriceLevel.pushBack, sameQuantity]

end Levels

/-- Adding an order with flags is adding it without and setting the flags. -/
theorem Represents.addOrder_setFlags {book : OrderBook} {nodes : List OrderNode}
    (rep : Represents book nodes) (order : Order)
    (new : ∀ node ∈ nodes, node.order.id ≠ order.id) {book' : OrderBook}
    (added : book.addOrder { order with flags := .none } = .ok (book', true)) :
    book.addOrder order = .ok (book'.setFlags order.id order.flags, true) := by
  let change : Order → Order := fun other =>
    if other.id = order.id then { other with flags := order.flags } else other
  have fixed : ∀ node ∈ nodes, change node.order = node.order :=
    fun node member => if_neg (new node member)
  have fixedBuy : ∀ node ∈ LevelMap.nodes book.buyLevels, change node.order = node.order :=
    fun node member => fixed node (rep.buy.mem_nodes_iff.mp member).1
  have fixedSell : ∀ node ∈ LevelMap.nodes book.sellLevels, change node.order = node.order :=
    fun node member => fixed node (rep.sell.mem_nodes_iff.mp member).1
  have changed : change { order with flags := .none } = order := if_pos rfl
  obtain ⟨valid, locations, indexed, sides⟩ := OrderBook.addOrder_eq_true_iff.mp added
  refine OrderBook.addOrder_eq_true_iff.mpr ⟨valid, locations, indexed, ?_⟩
  rcases sides with ⟨buy, rfl⟩ | ⟨sell, rfl⟩
  · have pushed := LevelMap.mapValues_pushBack fixedBuy order.price
      ⟨book.nextAddr, { order with flags := .none }⟩ (by rw [changed])
    rw [changed] at pushed
    refine Or.inl ⟨buy, ?_⟩
    rw [OrderBook.setFlags, OrderBook.mapOrders, OrderBook.mk.injEq]
    exact ⟨pushed, LevelMap.mapValues_of_fixed fixedSell, rfl, rfl⟩
  · have pushed := LevelMap.mapValues_pushBack fixedSell order.price
      ⟨book.nextAddr, { order with flags := .none }⟩ (by rw [changed])
    rw [changed] at pushed
    refine Or.inr ⟨sell, ?_⟩
    rw [OrderBook.setFlags, OrderBook.mapOrders, OrderBook.mk.injEq]
    exact ⟨LevelMap.mapValues_of_fixed fixedBuy, pushed, rfl, rfl⟩

theorem restRemainder_eq_ok_iff {book book' : OrderBook} {order : Order} :
    MatchingEngine.restRemainder book order = .ok book' ↔
      book.addOrder order = .ok (book', true) := by
  simp only [MatchingEngine.restRemainder, bind, Except.bind, pure, Except.pure]
  cases book.addOrder order with
  | error fault => simp
  | ok added =>
      obtain ⟨added, inserted⟩ := added
      cases inserted <;> simp

/-! ### An order that nothing is acceptable to -/

/-- The loop leaves such a state at once. -/
theorem matchLoop_of_refused {state : MatchingEngine.MatchState} {reference : Reference.MatchState}
    (sim : MatchSimulates state reference)
    (refused : reference.live.filter reference.order.accepts = []) (fuel : Nat) :
    MatchingEngine.matchLoop fuel state = .ok state := by
  cases fuel with
  | zero => rfl
  | succ fuel =>
      rcases matchStep_simulates sim with ⟨stop, _⟩ | ⟨_, next, _, step, _⟩
      · simp only [MatchingEngine.matchLoop, stop, bind, Except.bind, pure, Except.pure]
      · rw [Reference.matchStep_eq_none_iff.mpr (Or.inr refused)] at step
        contradiction

section Refused

variable {engine : MatchingEngine} {reference : Reference} {nodes : List OrderNode} {order : Order}

/-- Such an order rests untouched if it may. -/
theorem SimulatesOn.execute_of_refused (sim : SimulatesOn engine reference nodes)
    (sound : reference.Sound) {shortfall : Bool} (passed : reference.Passed order shortfall)
    (mayRest : order.mayRest = true) (refused : reference.live.filter order.accepts = [])
    (outTrades : List Trade) :
    ∃ book', MatchingEngine.restRemainder engine.book
        { order with sequence := engine.sequence + 1 } = .ok book' ∧
      { engine with sequence := engine.sequence + 1 }.execute order (engine.sequence + 1)
        outTrades =
        .ok ⟨{ engine with
            book := book'
            sequence := engine.sequence + 1
            seenOrderIds := insert order.id engine.seenOrderIds
            acceptedOrders := engine.acceptedOrders + 1 },
          MatchingEngine.acceptedReport order (engine.sequence + 1) order.quantity 0,
          outTrades⟩ := by
  have loop := matchLoop_of_refused (sim.matchStart order outTrades) refused
    engine.book.orderCount
  have positive : order.quantity > 0 := UInt32.pos_iff_ne_zero.mpr passed.valid.quantity
  have limit := (Order.mayRest_iff.mp mayRest).1
  have new : ∀ node ∈ nodes, node.order.id ≠ order.id := by
    intro node member same
    apply passed.new
    rw [← same]
    exact sound.seen node.order (sim.live ▸ List.mem_map_of_mem member)
  have restable : ({ order with sequence := engine.sequence + 1 } : Order).Restable :=
    ⟨passed.valid.id, isValidSide_iff.mp passed.valid.side, limit, passed.valid.quantity,
      passed.valid.price limit⟩
  obtain ⟨book', rested, _⟩ := restRemainder_ok sim.book restable new
  refine ⟨book', rested, ?_⟩
  simp only [MatchingEngine.execute, loop, positive, mayRest, and_self, if_true, rested, bind,
    Except.bind, pure, Except.pure, Nat.sub_self]

end Refused

/-! ### The three crossing decisions -/

namespace Reference

variable {engine : Reference}

/-- Some quantity is acceptable exactly when some live order is. -/
theorem acceptableQuantity_pos_iff (sound : engine.Sound) (order : Order) :
    0 < acceptableQuantity engine.live order ↔ engine.live.any order.accepts = true := by
  rw [acceptableQuantity, List.sum_pos_iff_exists_pos_nat, List.any_eq_true]
  refine ⟨?_, ?_⟩
  · rintro ⟨_, listed, _⟩
    obtain ⟨live, member, _⟩ := List.mem_map.mp listed
    exact ⟨live, List.mem_filter.mp member⟩
  · rintro ⟨live, member, accepted⟩
    refine ⟨_, List.mem_map_of_mem (List.mem_filter.mpr ⟨member, accepted⟩), ?_⟩
    exact UInt32.lt_iff_toNat_lt.mp
      (UInt32.pos_iff_ne_zero.mpr (sound.restable live member).quantity)

/-- The loop trades exactly when some quantity is acceptable. -/
theorem trades_execute_iff (sound : engine.Sound) {order : Order} (positive : order.quantity ≠ 0)
    (outTrades : List Trade) :
    outTrades.length < (engine.execute order outTrades).outTrades.length ↔
      0 < acceptableQuantity engine.live order := by
  obtain ⟨new, loop⟩ := sound.exists_loopTrades order outTrades
  have appended : (engine.execute order outTrades).outTrades = outTrades ++ new := loop.outTrades
  have remaining := matchEnd_remaining sound order outTrades
  have fewer := loop.length_add_le
  have total := loop.quantities
  have lots : 0 < order.quantity.toNat :=
    UInt32.lt_iff_toNat_lt.mp (UInt32.pos_iff_ne_zero.mpr positive)
  have start : (engine.matchStart order outTrades).order.quantity = order.quantity := rfl
  rw [start] at fewer total
  rw [appended, List.length_append]
  refine ⟨?_, ?_⟩
  · intro longer
    omega
  · intro offered
    cases new with
    | nil =>
        simp only [List.map_nil, List.sum_nil] at total
        omega
    | cons trade later => simp

end Reference

/-! ### Post-only orders -/

/-- The order without flags. -/
def Order.unflagged (order : Order) : Order := { order with flags := .none }

theorem hasFlag_none : hasFlag .none .postOnly = false := by decide

/-- Static validation asks of a post-only order that it may rest. -/
theorem mayRest_of_postOnly {order : Order} (valid : validateStatic order = .none)
    (flagged : hasFlag order.flags .postOnly = true) : order.mayRest = true := by
  unfold validateStatic at valid
  repeat' split at valid
  all_goals first | contradiction | skip
  rename_i _ postOnly
  have rests : ¬(order.type ≠ .limit ∨ order.timeInForce ≠ .gtc) :=
    fun immediate => postOnly ⟨flagged, immediate⟩
  rw [not_or, not_not, not_not] at rests
  exact Order.mayRest_iff.mpr rests

theorem validateStatic_unflagged {order : Order} (valid : validateStatic order = .none) :
    validateStatic order.unflagged = .none := by
  have none : OrderFlags.none.byte &&& ~~~OrderFlags.postOnly.byte = 0 := by decide
  unfold validateStatic at valid ⊢
  repeat' split at valid
  all_goals first | contradiction | skip
  rename_i id side type timeInForce _ quantity price market _
  simp only [Order.unflagged, id, side, type, timeInForce, none, quantity, price, market,
    hasFlag_none, if_false, Bool.false_eq_true, ne_eq, not_true_eq_false, false_and]

section PostOnly

variable {engine : MatchingEngine} {reference : Reference} {order : Order}

/-- The checks that precede the flags do not look at them. -/
theorem MatchingEngine.Admits.unflagged (admits : engine.Admits order) :
    engine.Admits order.unflagged :=
  ⟨validateStatic_unflagged admits.static, admits.new, admits.risk⟩

theorem MatchingEngine.Admits.rejectReason_postOnly (admits : engine.Admits order)
    (flagged : hasFlag order.flags .postOnly = true) :
    engine.rejectReason order =
      if engine.book.wouldCross order = true then .postOnlyWouldTrade else .none := by
  have gtc := (Order.mayRest_iff.mp (mayRest_of_postOnly admits.static flagged)).2
  rw [admits.rejectReason_eq, flagged, Bool.true_and, gtc]
  simp only [TimeInForce.gtc_ne_fok, false_and, if_false]

theorem MatchingEngine.Admits.rejectReason_unflagged (admits : engine.Admits order)
    (mayRest : order.mayRest = true) : engine.rejectReason order.unflagged = .none := by
  have plain : hasFlag order.unflagged.flags .postOnly = false := hasFlag_none
  have gtc : order.unflagged.timeInForce = .gtc := (Order.mayRest_iff.mp mayRest).2
  rw [admits.unflagged.rejectReason_eq, plain, Bool.false_and, if_neg Bool.false_ne_true, gtc,
    if_neg (fun short => TimeInForce.gtc_ne_fok short.1)]

/-- Where nothing is acceptable, the flagged and the unflagged order rest alike. -/
theorem SimulatesOn.rest_unflagged {nodes : List OrderNode}
    (sim : SimulatesOn engine reference nodes) (sound : reference.Sound)
    {shortfall shortfall' : Bool} (passed : reference.Passed order shortfall)
    (passed' : reference.Passed order.unflagged shortfall') (mayRest : order.mayRest = true)
    (refused : reference.live.filter order.accepts = []) (outTrades : List Trade)
    (reason : engine.rejectReason order = .none)
    (reason' : engine.rejectReason order.unflagged = .none) :
    ∃ flagged plain, engine.processOrder order outTrades = .ok flagged ∧
      engine.processOrder order.unflagged outTrades = .ok plain ∧
      flagged.report.status = .resting ∧ flagged.report.rejectReason = .none ∧
      flagged.outTrades = outTrades ∧
      flagged.engine.book = plain.engine.book.setFlags order.id order.flags := by
  obtain ⟨book, rested, executed⟩ := sim.execute_of_refused sound passed mayRest refused outTrades
  obtain ⟨book', rested', executed'⟩ :=
    sim.execute_of_refused sound passed' mayRest refused outTrades
  have new : ∀ node ∈ nodes, node.order.id ≠ order.id := by
    intro node member same
    exact passed.new (same ▸ sound.seen node.order (sim.live ▸ List.mem_map_of_mem member))
  have sameBook : book = book'.setFlags order.id order.flags := by
    have added := sim.book.addOrder_setFlags { order with sequence := engine.sequence + 1 } new
      (restRemainder_eq_ok_iff.mp rested')
    exact Except.ok.inj (rested.symm.trans (restRemainder_eq_ok_iff.mpr added))
  refine ⟨_, _, (MatchingEngine.processOrder_of_passed reason outTrades).trans executed,
    (MatchingEngine.processOrder_of_passed reason' outTrades).trans executed', ?_, rfl, rfl,
    sameBook⟩
  have nothing : order.quantity - order.quantity = 0 := UInt32.sub_self _
  have positive : order.quantity > 0 := UInt32.pos_iff_ne_zero.mpr passed.valid.quantity
  simp only [MatchingEngine.acceptedReport, passed.valid.quantity, positive, decide_true,
    mayRest, Bool.and_self, nothing, if_true, if_false]

/-- A post-only order is rejected where its unflagged variant trades, and rests otherwise. -/
theorem Simulates.postOnly (sim : Simulates engine reference) (sound : reference.Sound)
    (few : reference.live.length < 2 ^ 32) (admits : engine.Admits order)
    (isPostOnly : hasFlag order.flags .postOnly = true) (outTrades : List Trade) :
    ∃ flagged plain, engine.processOrder order outTrades = .ok flagged ∧
      engine.processOrder order.unflagged outTrades = .ok plain ∧
      (flagged.report.rejectReason = .postOnlyWouldTrade ↔
        outTrades.length < plain.outTrades.length) ∧
      (flagged.report.rejectReason = .postOnlyWouldTrade ↔
        0 < engine.book.executableQuantity order order.quantity.toUInt64) ∧
      (flagged.report.rejectReason ≠ .postOnlyWouldTrade →
        flagged.report.status = .resting ∧ flagged.outTrades = outTrades ∧
        flagged.engine.book = plain.engine.book.setFlags order.id order.flags) := by
  have mayRest := mayRest_of_postOnly admits.static isPostOnly
  have valid := staticallyValid_of_validateStatic admits.static
  have reason := admits.rejectReason_postOnly isPostOnly
  have reason' := admits.rejectReason_unflagged mayRest
  obtain ⟨passed', plain, processed', agrees⟩ := sim.execute sound reason' outTrades
  -- all three decisions ask for an acceptable quantity
  have trades : outTrades.length < plain.outTrades.length ↔
      0 < Reference.acceptableQuantity reference.live order := by
    rw [agrees.outTrades]
    exact Reference.trades_execute_iff sound passed'.valid.quantity outTrades
  have executable : 0 < engine.book.executableQuantity order order.quantity.toUInt64 ↔
      0 < Reference.acceptableQuantity reference.live order := by
    have lots : 0 < order.quantity.toNat :=
      UInt32.lt_iff_toNat_lt.mp (UInt32.pos_iff_ne_zero.mpr valid.quantity)
    rw [UInt64.lt_iff_toNat_lt, sim.executableQuantity_toNat few valid, UInt64.toNat_zero]
    omega
  have crosses : engine.book.wouldCross order = true ↔
      0 < Reference.acceptableQuantity reference.live order := by
    obtain ⟨nodes, sim⟩ := sim
    rw [sim.book.wouldCross_eq valid.side valid.type, sim.live,
      Reference.acceptableQuantity_pos_iff sound]
  by_cases crossing : engine.book.wouldCross order = true
  · rw [if_pos crossing] at reason
    have offered := crosses.mp crossing
    exact ⟨_, plain, processOrder_of_rejected reason (by decide) outTrades, processed',
      iff_of_true rfl (trades.mpr offered), iff_of_true rfl (executable.mpr offered),
      fun other => absurd rfl other⟩
  · rw [if_neg crossing] at reason
    have none : ¬0 < Reference.acceptableQuantity reference.live order :=
      fun offered => crossing (crosses.mpr offered)
    have refused : reference.live.filter order.accepts = [] := by
      rw [List.filter_eq_nil_iff]
      intro live member accepted
      exact none ((Reference.acceptableQuantity_pos_iff sound order).mpr
        (List.any_eq_true.mpr ⟨live, member, accepted⟩))
    obtain ⟨passed, _⟩ := sim.execute sound reason outTrades
    obtain ⟨nodes, sim⟩ := sim
    obtain ⟨flagged, plain', processed, processed'', resting, noReason, noTrades, book⟩ :=
      sim.rest_unflagged sound passed passed' mayRest refused outTrades reason reason'
    obtain rfl := Except.ok.inj (processed'.symm.trans processed'')
    have notRejected : flagged.report.rejectReason ≠ .postOnlyWouldTrade := by
      rw [noReason]
      exact RejectReason.noConfusion
    exact ⟨flagged, plain, processed, processed',
      iff_of_false notRejected (fun traded => none (trades.mp traded)),
      iff_of_false notRejected (fun offered => none (executable.mp offered)),
      fun _ => ⟨resting, noTrades, book⟩⟩

end PostOnly

/-- Post-only never takes and never rejects too much, in every state of a short run. -/
theorem post_only_exact (limits : RiskLimits) (commands : List Command)
    (short : commands.length < 2 ^ 32) :
    ∃ engine, (MatchingEngine.fresh limits).runAll commands = .ok engine ∧
      ∀ (order : Order) outTrades, hasFlag order.flags .postOnly = true → engine.Admits order →
        ∃ flagged plain, engine.processOrder order outTrades = .ok flagged ∧
          engine.processOrder order.unflagged outTrades = .ok plain ∧
          (flagged.report.rejectReason = .postOnlyWouldTrade ↔
            outTrades.length < plain.outTrades.length) ∧
          (flagged.report.rejectReason = .postOnlyWouldTrade ↔
            0 < engine.book.executableQuantity order order.quantity.toUInt64) ∧
          (flagged.report.rejectReason ≠ .postOnlyWouldTrade →
            flagged.report.status = .resting ∧ flagged.outTrades = outTrades ∧
            flagged.engine.book = plain.engine.book.setFlags order.id order.flags) := by
  obtain ⟨engine, reference, reached, sim, sound, few⟩ := exists_refines limits commands short
  refine ⟨engine, reached, ?_⟩
  intro order outTrades isPostOnly admits
  exact sim.postOnly sound few admits isPostOnly outTrades

/-- Against a resting SELL at 100, a post-only BUY at 100 is admitted and rejected. -/
theorem post_only_exact_at_ask :
    let commands : List Command :=
      [.newOrder { id := 1, side := .sell, price := 100, quantity := 10 }]
    let order : Order := { id := 2, side := .buy, price := 100, quantity := 4, flags := .postOnly }
    ∃ engine, (MatchingEngine.fresh {}).runAll commands = .ok engine ∧ engine.Admits order ∧
      ∃ flagged, engine.processOrder order [] = .ok flagged ∧
        flagged.report.rejectReason = .postOnlyWouldTrade := by
  intro commands order
  obtain ⟨engine, reached, facts⟩ := post_only_exact {} commands (by decide)
  have checks : ((MatchingEngine.fresh {}).runAll commands).map (fun engine =>
      decide (engine.Admits order ∧
        0 < engine.book.executableQuantity order order.quantity.toUInt64)) = .ok true := by
    decide +kernel
  rw [reached] at checks
  obtain ⟨admits, offered⟩ := of_decide_eq_true (Except.ok.inj checks)
  obtain ⟨flagged, plain, processed, _, _, rejected, _⟩ := facts order [] (by decide) admits
  exact ⟨engine, reached, admits, flagged, processed, rejected.mpr offered⟩

end Lob
