import Lob.MatchingEngine.History

/-!
# Price-time priority over whole runs

A `Fill` is the moment at which the matching loop generates a trade: the book as it
stands, the incoming order and the trade. `fills` collects the fills of a run by taking
the engine's own steps, and their trades are the trades of the run. An accepted order
that outranks the resting party of a fill, by price or by having been accepted earlier,
is no longer in the book at that moment. Nothing bounds the length of the run, so
sequence numbers, which wrap, cannot say who was accepted earlier; the history does.
-/

namespace Lob

variable {accepted : List UInt64}

/-- A trade and the book it was generated on. -/
structure Fill where
  book : OrderBook
  incoming : Order
  trade : Trade

/-- The party of the trade that was resting. -/
def Fill.restingId (fill : Fill) : UInt64 :=
  if fill.incoming.side = .buy then fill.trade.sellOrderId else fill.trade.buyOrderId

namespace MatchingEngine

/-- The fills of the matching loop. -/
def loopFills : Nat → MatchState → Except Fault (List Fill)
  | 0, _ => .ok []
  | fuel + 1, state => do
      match ← matchStep state with
      | none => return []
      | some next =>
          let later ← loopFills fuel next
          return (next.outTrades.getLast?.map
            (fun trade => ⟨state.book, state.order, trade⟩)).toList ++ later

/-- The fills of one command. -/
def commandFills (engine : MatchingEngine) (command : Command) (outTrades : List Trade) :
    Except Fault (List Fill) :=
  match command with
  | .cancel _ => .ok []
  | .newOrder order =>
      if { engine with sequence := engine.sequence + 1 }.rejectReason order = .none then
        loopFills engine.book.orderCount {
          book := engine.book
          order := { order with sequence := engine.sequence + 1 }
          nextTradeId := engine.nextTradeId
          outTrades }
      else .ok []

/-- The fills of a run. -/
def fills : MatchingEngine → List Command → List Trade → Except Fault (List Fill)
  | _, [], _ => .ok []
  | engine, command :: commands, outTrades => do
      let now ← engine.commandFills command outTrades
      let response ← engine.apply command outTrades
      let later ← fills response.engine commands response.outTrades
      return now ++ later

theorem fills_concat {engine : MatchingEngine} {commands : List Command} {outTrades : List Trade}
    {responses : List Response} (run : engine.trace commands outTrades = .ok responses)
    {earlier : List Fill} (collected : engine.fills commands outTrades = .ok earlier)
    {command : Command} {response : Response} {now : List Fill}
    (applied : (engine.lastEngine responses).apply command (lastTrades outTrades responses) =
      .ok response)
    (filled : (engine.lastEngine responses).commandFills command (lastTrades outTrades responses) =
      .ok now) :
    engine.fills (commands ++ [command]) outTrades = .ok (earlier ++ now) := by
  induction commands generalizing engine outTrades responses earlier with
  | nil =>
      obtain rfl := Except.ok.inj run
      obtain rfl := Except.ok.inj collected
      rw [lastEngine_nil, lastTrades_nil] at applied filled
      simp only [List.nil_append, fills, applied, filled, bind, Except.bind, pure, Except.pure,
        List.append_nil]
  | cons first commands ih =>
      simp only [trace, bind, Except.bind, pure, Except.pure] at run
      split at run
      · contradiction
      rename_i head headApplied
      split at run
      · contradiction
      rename_i tail tailRun
      obtain rfl := Except.ok.inj run
      simp only [fills, bind, Except.bind, pure, Except.pure, headApplied] at collected
      split at collected
      · contradiction
      rename_i headFills headFilled
      split at collected
      · contradiction
      rename_i tailFills tailFilled
      obtain rfl := Except.ok.inj collected
      rw [lastEngine_cons, lastTrades_cons] at applied filled
      simp only [List.cons_append, fills, headFilled, headApplied, ih tailRun tailFilled applied
        filled, bind, Except.bind, pure, Except.pure, List.append_assoc]

end MatchingEngine

/-! ### Priority -/

/-- The first order has the strictly better price for its side. -/
def Order.betterPrice (a b : Order) : Prop :=
  if a.side = .buy then a.price > b.price else a.price < b.price

/-- The first order comes first: by price, or by acceptance at the same price. -/
def Order.outranks (accepted : List UInt64) (a b : Order) : Prop :=
  a.betterPrice b ∨ (a.price = b.price ∧ accepted.idxOf a.id < accepted.idxOf b.id)

/-- The resting party of the fill is in the book, and no order of its side outranks it. -/
structure Fill.Respects (accepted : List UInt64) (fill : Fill) : Prop where
  rests : ∃ node ∈ fill.book.nodes, node.order.id = fill.restingId
  priority : ∀ a ∈ fill.book.nodes, ∀ b ∈ fill.book.nodes, b.order.id = fill.restingId →
    a.order.side = b.order.side → ¬a.order.outranks accepted b.order

/-- The orders of a list stand in the order of acceptance. -/
def InArrivalOrder (accepted : List UInt64) (live : List Order) : Prop :=
  (live.map Order.id).Pairwise (fun a b => accepted.idxOf a < accepted.idxOf b)

/-- The positions in a list without repetition, which entries behind it do not change. -/
theorem pairwise_idxOf {α : Type*} [DecidableEq α] {items : List α} (nodup : items.Nodup)
    (later : List α) :
    items.Pairwise (fun a b => (items ++ later).idxOf a < (items ++ later).idxOf b) := by
  rw [List.pairwise_iff_getElem]
  intro i j hi hj less
  rwa [List.idxOf_append_of_mem (List.getElem_mem hi), nodup.idxOf_getElem,
    List.idxOf_append_of_mem (List.getElem_mem hj), nodup.idxOf_getElem]

theorem Reference.Recorded.inArrivalOrder {engine : Reference} {events : List Event}
    {trades : List Trade} (recorded : engine.Recorded events trades) (later : List UInt64) :
    InArrivalOrder (acceptedIds events ++ later) engine.live :=
  (pairwise_idxOf recorded.unique later).sublist recorded.arrival

theorem InArrivalOrder.of_terms {live live' : List Order} (ordered : InArrivalOrder accepted live)
    (sub : (live'.map Order.terms).Sublist (live.map Order.terms)) :
    InArrivalOrder accepted live' :=
  List.Pairwise.sublist (Reference.ids_sublist_of_terms sub) ordered

/-- Among the acceptable orders that rank no worse, the picked one was accepted first. -/
theorem pickBest_first {live : List Order} {incoming best order : Order}
    (ordered : InArrivalOrder accepted live) (picked : Reference.pickBest live incoming = some best)
    (member : order ∈ live) (acceptable : incoming.accepts order = true)
    (rank : incoming.rank order ≤ incoming.rank best) :
    ¬accepted.idxOf order.id < accepted.idxOf best.id := by
  have inFilter : order ∈ live.filter incoming.accepts := List.mem_filter.mpr ⟨member, acceptable⟩
  have bestIn : best ∈ live.filter incoming.accepts := List.argmin_mem picked
  have index := List.index_of_argmin picked inFilter rank
  have sorted := (List.pairwise_map.mp ordered).sublist
    (List.filter_sublist (p := incoming.accepts))
  intro earlier
  rcases Nat.lt_or_eq_of_le index with before | same
  · have hi := List.idxOf_lt_length_of_mem bestIn
    have hj := List.idxOf_lt_length_of_mem inFilter
    have later := List.pairwise_iff_getElem.mp sorted _ _ hi hj before
    rw [List.getElem_idxOf hi, List.getElem_idxOf hj] at later
    omega
  · have equal : best = order := by
      rw [← List.getElem_idxOf (List.idxOf_lt_length_of_mem bestIn),
        ← List.getElem_idxOf (List.idxOf_lt_length_of_mem inFilter)]
      simp only [same]
    rw [equal] at earlier
    omega

/-- The order that the reference picks is not outranked. -/
theorem pickBest_not_outranked {live : List Order} {incoming best order : Order}
    (ordered : InArrivalOrder accepted live) (picked : Reference.pickBest live incoming = some best)
    (member : order ∈ live) (sameSide : order.side = best.side) :
    ¬order.outranks accepted best := by
  obtain ⟨_, bestAccepted⟩ := Reference.pickBest_mem picked
  obtain ⟨bestSide, bestCrosses⟩ := Order.accepts_iff.mp bestAccepted
  have acceptable : incoming.rank order ≤ incoming.rank best → incoming.accepts order = true :=
    fun rank => Order.accepts_iff.mpr
      ⟨sameSide.trans bestSide, Order.crosses_of_rank_le rank bestCrosses⟩
  rintro (better | ⟨samePrice, earlier⟩)
  · have rank : incoming.rank order < incoming.rank best := by
      rw [Order.betterPrice, sameSide, bestSide] at better
      by_cases buy : incoming.side = .buy
      · rw [Order.opposite_of_buy buy, if_neg Side.buy_ne_sell.symm,
          Int64.lt_iff_toInt_lt] at better
        simpa only [Order.rank, if_pos buy] using better
      · rw [Order.opposite_of_not_buy buy, if_pos rfl, gt_iff_lt, Int64.lt_iff_toInt_lt] at better
        simp only [Order.rank, if_neg buy]
        omega
    have inFilter := List.mem_filter.mpr ⟨member, acceptable (Int.le_of_lt rank)⟩
    exact List.not_lt_of_mem_argmin inFilter picked rank
  · have rank : incoming.rank order = incoming.rank best := by
      simp only [Order.rank, samePrice]
    exact pickBest_first ordered picked member (acceptable (Int.le_of_eq rank)) (Int.le_of_eq rank)
      earlier

/-! ### The matching loop -/

open MatchingEngine

theorem restingId_tradeOf (book : OrderBook) (incoming best : Order) (tradeId : UInt64)
    (quantity : UInt32) :
    Fill.restingId ⟨book, incoming, tradeOf tradeId incoming best quantity⟩ = best.id := by
  by_cases buy : incoming.side = .buy <;> simp [Fill.restingId, tradeOf, buy]

/-- A fill with the order that the reference picks. -/
theorem respects_of_picked {book : OrderBook} {nodes : List OrderNode} (rep : Represents book nodes)
    (ordered : InArrivalOrder accepted (nodes.map OrderNode.order)) {incoming best : Order}
    (picked : Reference.pickBest (nodes.map OrderNode.order) incoming = some best)
    (tradeId : UInt64) (quantity : UInt32) :
    Fill.Respects accepted ⟨book, incoming, tradeOf tradeId incoming best quantity⟩ := by
  obtain ⟨node, inNodes, rfl⟩ := List.mem_map.mp (Reference.pickBest_mem picked).1
  refine ⟨⟨node, rep.mem_nodes_iff.mpr inNodes, (restingId_tradeOf _ _ _ _ _).symm⟩, ?_⟩
  intro a inA b inB isResting sameSide
  rw [restingId_tradeOf] at isResting
  obtain rfl := rep.eq_of_id (rep.mem_nodes_iff.mp inB) inNodes isResting
  exact pickBest_not_outranked ordered picked
    (List.mem_map_of_mem (rep.mem_nodes_iff.mp inA)) sameSide

/-- The fills of the loop carry its trades, find only orders that were live at its start,
and respect every order of acceptance in which the live list stands. -/
theorem loopFills_respects (fuel : Nat) {state : MatchState} {reference : Reference.MatchState}
    (sim : MatchSimulates state reference) :
    ∃ fills final, loopFills fuel state = .ok fills ∧ matchLoop fuel state = .ok final ∧
      final.outTrades = state.outTrades ++ fills.map Fill.trade ∧
      (∀ fill ∈ fills, ∀ node ∈ fill.book.nodes,
        ∃ origin ∈ reference.live, node.order.terms = origin.terms) ∧
      ∀ accepted, InArrivalOrder accepted reference.live → ∀ fill ∈ fills,
        fill.Respects accepted := by
  induction fuel generalizing state reference with
  | zero => exact ⟨[], state, rfl, rfl, by simp, by simp, by simp⟩
  | succ fuel ih =>
      rcases matchStep_simulates sim with ⟨stop, _⟩ | ⟨next, next', step, step', sim'⟩
      · refine ⟨[], state, ?_, ?_, by simp, by simp, by simp⟩
        · simp only [loopFills, stop, bind, Except.bind, pure, Except.pure]
        · simp only [matchLoop, stop, bind, Except.bind, pure, Except.pure]
      · obtain ⟨_, best, picked, rfl⟩ := Reference.matchStep_eq_some_iff.mp step'
        obtain ⟨fills, final, collected, finished, trades, origins, respects⟩ := ih sim'
        obtain ⟨nodes, rep, rfl⟩ := sim
        obtain ⟨_, _, sameNext⟩ := sim'
        -- the trade that this iteration appended
        let quantity := min state.order.quantity best.quantity
        have appended : next.outTrades =
            state.outTrades ++ [tradeOf state.nextTradeId state.order best quantity] :=
          (congrArg Reference.MatchState.outTrades sameNext).symm
        refine ⟨⟨state.book, state.order, tradeOf state.nextTradeId state.order best quantity⟩ ::
          fills, final, ?_, ?_, ?_, ?_, ?_⟩
        · simp only [loopFills, step, collected, appended, bind, Except.bind, pure, Except.pure,
            List.getLast?_concat, Option.map_some, Option.toList_some, List.singleton_append]
        · simp only [matchLoop, step, finished, bind, Except.bind]
        · rw [trades, appended]
          simp
        · intro fill member node inBook
          rcases List.mem_cons.mp member with rfl | later
          · exact ⟨node.order, List.mem_map_of_mem (rep.mem_nodes_iff.mp inBook), rfl⟩
          · obtain ⟨origin, inLive, same⟩ := origins fill later node inBook
            obtain ⟨first, inFirst, same'⟩ :=
              Reference.exists_origin (Reference.filterMap_reduce_terms _ _ _) inLive
            exact ⟨first, inFirst, same.trans same'⟩
        · intro accepted ordered fill member
          rcases List.mem_cons.mp member with rfl | later
          · exact respects_of_picked rep ordered picked _ _
          · exact respects accepted (ordered.of_terms (Reference.filterMap_reduce_terms _ _ _))
              fill later

/-! ### Runs -/

section Runs

variable {engine : MatchingEngine} {reference : Reference} {events : List Event}
  {trades : List Trade}

theorem execute_outTrades {order : Order} {eventSequence : UInt64} {response : Response}
    (executed : engine.execute order eventSequence trades = .ok response) {final : MatchState}
    (finished : matchLoop engine.book.orderCount
      ⟨engine.book, { order with sequence := eventSequence }, engine.nextTradeId, trades⟩ =
        .ok final) :
    response.outTrades = final.outTrades := by
  simp only [execute, finished, bind, Except.bind, pure, Except.pure] at executed
  split at executed
  · split at executed
    · contradiction
    · rw [← Except.ok.inj executed]
  · rw [← Except.ok.inj executed]

/-- What the history says about a fill; acceptances still to come do not matter. -/
structure Fill.Explained (events : List Event) (fill : Fill) : Prop where
  respects : ∀ later, fill.Respects (acceptedIds events ++ later)
  origins : ∀ node ∈ fill.book.nodes, ∃ order ∈ acceptedOrders events,
    node.order.StandsFor order

theorem Fill.Explained.concat {fill : Fill} (explained : fill.Explained events) (event : Event) :
    fill.Explained (events ++ [event]) := by
  refine ⟨fun later => ?_, fun node member => ?_⟩
  · rw [acceptedIds_concat, List.append_assoc]
    exact explained.respects _
  · obtain ⟨order, accepted, stands⟩ := explained.origins node member
    refine ⟨order, ?_, stands⟩
    rw [acceptedOrders_concat]
    exact List.mem_append_left _ accepted

/-- The fills of one command of a run. -/
theorem Follows.commandFills (follows : Follows engine reference events trades)
    (command : Command) {response : Response}
    (applied : engine.apply command trades = .ok response) :
    ∃ fills, engine.commandFills command trades = .ok fills ∧
      response.outTrades = trades ++ fills.map Fill.trade ∧
      ∀ fill ∈ fills, fill.Explained events := by
  cases command with
  | cancel orderId =>
      obtain ⟨_, _, rfl⟩ := MatchingEngine.apply_cancel applied
      exact ⟨[], rfl, by simp, by simp⟩
  | newOrder order =>
      by_cases passed : { engine with sequence := engine.sequence + 1 }.rejectReason order = .none
      · obtain ⟨nodes, sim⟩ := follows.simulates
        simp only [MatchingEngine.apply, processOrder, passed] at applied
        simp only [MatchingEngine.commandFills, passed, if_true]
        obtain ⟨fills, final, collected, finished, appended, origins, respects⟩ :=
          loopFills_respects engine.book.orderCount (sim.matchStart order trades)
        refine ⟨fills, collected, (execute_outTrades applied finished).trans appended,
          fun fill member => ⟨fun later =>
            respects _ (follows.recorded.inArrivalOrder later) fill member, ?_⟩⟩
        intro node inBook
        obtain ⟨origin, inLive, same⟩ := origins fill member node inBook
        obtain ⟨accepted, inEvents, stands⟩ := follows.recorded.origin origin inLive
        exact ⟨accepted, inEvents, stands.of_terms same⟩
      · have rejected := processOrder_of_rejected rfl passed trades
        obtain rfl := Except.ok.inj (applied.symm.trans rejected)
        exact ⟨[], if_neg passed, by simp, by simp⟩

end Runs

/-- The fills of a run carry its trades, and the history explains them. -/
theorem fills_explained (limits : RiskLimits) (commands : List Command) :
    ∃ responses fills, (MatchingEngine.fresh limits).trace commands [] = .ok responses ∧
      (MatchingEngine.fresh limits).fills commands [] = .ok fills ∧
      responses.length = commands.length ∧
      (∃ reference, Follows ((MatchingEngine.fresh limits).lastEngine responses) reference
        (history commands responses) (lastTrades [] responses)) ∧
      fills.map Fill.trade = lastTrades [] responses ∧
      ∀ fill ∈ fills, fill.Explained (history commands responses) := by
  induction commands using List.reverseRecOn with
  | nil => exact ⟨[], [], rfl, rfl, rfl, ⟨_, follows_fresh limits⟩, rfl, by simp⟩
  | append_singleton commands command ih =>
      obtain ⟨responses, fills, run, collected, length, ⟨reference, follows⟩, trades, explained⟩ :=
        ih
      obtain ⟨response, applied, reference', follows'⟩ := follows.apply command
      obtain ⟨now, filled, appended, explainedNow⟩ := follows.commandFills command applied
      have events := history_concat length command response
      refine ⟨responses ++ [response], fills ++ now, trace_concat run applied,
        fills_concat run collected applied filled, by simp [length], ⟨reference', ?_⟩, ?_, ?_⟩
      · rwa [events, lastEngine_concat, lastTrades_concat]
      · rw [List.map_append, trades, lastTrades_concat, appended]
      · intro fill member
        rw [events]
        rcases List.mem_append.mp member with old | new
        · exact (explained fill old).concat _
        · exact (explainedNow fill new).concat _

/-- Price-time priority. The trades of a run are generated at its fills, each with a
resting party in the book. If an accepted order outranks the resting party of a fill on
the same side, it does not rest in the book on which the trade is generated. -/
theorem price_time_priority (limits : RiskLimits) (commands : List Command) :
    ∃ responses fills, (MatchingEngine.fresh limits).trace commands [] = .ok responses ∧
      (MatchingEngine.fresh limits).fills commands [] = .ok fills ∧
      fills.map Fill.trade = lastTrades [] responses ∧
      ∀ fill ∈ fills,
        (∃ node ∈ fill.book.nodes, node.order.id = fill.restingId) ∧
        ∀ a ∈ acceptedOrders (history commands responses),
          ∀ b ∈ acceptedOrders (history commands responses),
            b.id = fill.restingId → a.side = b.side →
            a.outranks (acceptedIds (history commands responses)) b →
            ∀ node ∈ fill.book.nodes, node.order.id ≠ a.id := by
  obtain ⟨responses, fills, run, collected, _, ⟨reference, follows⟩, trades, explained⟩ :=
    fills_explained limits commands
  have unique : ∀ order ∈ acceptedOrders (history commands responses),
      ∀ order' ∈ acceptedOrders (history commands responses), order.id = order'.id →
        order = order' := fun order member order' member' same =>
    List.inj_on_of_nodup_map follows.recorded.unique member member' same
  refine ⟨responses, fills, run, collected, trades, fun fill member => ?_⟩
  have respects := (explained fill member).respects []
  rw [List.append_nil] at respects
  refine ⟨respects.rests, ?_⟩
  intro a acceptedA b acceptedB isResting sameSide outranks node inBook isA
  obtain ⟨resting, restingIn, restingId⟩ := respects.rests
  obtain ⟨a', acceptedA', standsA⟩ := (explained fill member).origins node inBook
  obtain ⟨b', acceptedB', standsB⟩ := (explained fill member).origins resting restingIn
  -- ids are accepted once, so the two nodes stand for `a` and `b` themselves
  obtain rfl : a' = a := by
    apply unique a' acceptedA' a acceptedA
    rw [← isA, standsA]
  obtain rfl : b' = b := by
    apply unique b' acceptedB' b acceptedB
    rw [isResting, ← restingId, standsB]
  refine respects.priority node inBook resting restingIn restingId ?_ ?_
  · rw [standsA, standsB]
    exact sameSide
  · rw [standsA, standsB]
    exact outranks

end Lob
