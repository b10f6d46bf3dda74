import Lob.MatchingEngine.History

/-!
# Progress of the matching loop

The `while` loop of `processOrder` has no counter. It ends because every iteration trades
at least one lot and, unless it is the last, takes a resting order out of the book. That
rests on two invariants of whole runs: no resting order has quantity zero, and no level is
empty. While the totals of the book fit into their 64 bits, no subtraction of the loop or of
`reduceFront` wraps either.

`LoopRun` is the loop as it runs, iteration by iteration, until its own condition fails. It
has no bound built in, so its length is a fact to be proved and not one of the model.
-/

namespace Lob

open MatchingEngine

/-- The level at the front of a side. -/
def OrderBook.bestLevel (book : OrderBook) (side : Side) : Option PriceLevel :=
  if side = .buy then book.buyLevels.front?.map Prod.snd else book.sellLevels.front?.map Prod.snd

/-- The number of nodes on a side. -/
def sideCount (side : Side) (nodes : List OrderNode) : Nat :=
  (nodes.filter (fun node => decide (node.order.side = side))).length

/-- The number of orders that rest on a side. -/
def OrderBook.restingOn (book : OrderBook) (side : Side) : Nat := sideCount side book.nodes

/-- One iteration of the loop: `frontOfBest` returns an order, a positive quantity is
traded, and the three quantities that it is subtracted from are at least as large. -/
structure Iteration (state : MatchState) (best : Order) (level : PriceLevel) (trade : Trade)
    (next : MatchState) : Prop where
  step : matchStep state = .ok (some next)
  front : state.book.frontOfBest state.order.opposite = some best
  atFront : state.book.bestLevel state.order.opposite = some level
  appended : next.outTrades = state.outTrades ++ [trade]
  left : next.order = { state.order with quantity := state.order.quantity - trade.quantity }
  positive : 1 ≤ trade.quantity
  incoming : trade.quantity ≤ state.order.quantity
  resting : trade.quantity ≤ best.quantity
  total : trade.quantity.toUInt64 ≤ level.totalQuantity

/-- The loop from a state to the state in which its condition fails, with its trades. Every
trade but the last takes the whole resting order and removes it. -/
inductive LoopRun : MatchState → List Trade → MatchState → Prop
  | done {state : MatchState} (stop : matchStep state = .ok none) : LoopRun state [] state
  | last {state next : MatchState} {best : Order} {level : PriceLevel} {trade : Trade}
      (iteration : Iteration state best level trade next) (stop : matchStep next = .ok none) :
      LoopRun state [trade] next
  | more {state next final : MatchState} {best : Order} {level : PriceLevel} {trade : Trade}
      {trades : List Trade} (iteration : Iteration state best level trade next)
      (whole : trade.quantity = best.quantity) (removed : next.book.contains best.id = false)
      (rest : LoopRun next trades final) : LoopRun state (trade :: trades) final

/-- The bounded loop of the model is the loop as it runs, when the bound is large enough. -/
theorem LoopRun.matchLoop_eq {state final : MatchState} {trades : List Trade}
    (run : LoopRun state trades final) {fuel : Nat} (enough : trades.length ≤ fuel) :
    matchLoop fuel state = .ok final := by
  have stopped : ∀ {state : MatchState} (fuel : Nat), matchStep state = .ok none →
      matchLoop fuel state = .ok state := by
    intro state fuel stop
    cases fuel with
    | zero => rfl
    | succ fuel => simp only [matchLoop, stop, bind, Except.bind, pure, Except.pure]
  induction run generalizing fuel with
  | done stop => exact stopped fuel stop
  | last iteration stop =>
      obtain ⟨fuel, rfl⟩ := Nat.exists_eq_add_one_of_ne_zero (Nat.ne_of_gt enough)
      simp only [matchLoop, iteration.step, bind, Except.bind, stopped fuel stop]
  | more iteration _ _ _ ih =>
      rw [List.length_cons] at enough
      obtain ⟨fuel, rfl⟩ := Nat.exists_eq_add_one_of_ne_zero (by omega : fuel ≠ 0)
      simp only [matchLoop, iteration.step, bind, Except.bind, ih (Nat.le_of_succ_le_succ enough)]

/-! ### One iteration -/

theorem LevelMap.exists_of_frontOfBest {lt : Int64 → Int64 → Prop} [IsStrictTotalOrder Int64 lt]
    {levels : LevelMap lt} {side : Side} {nodes : List OrderNode}
    (groups : Groups levels side nodes) (fits : quantitySum nodes < 2 ^ 64) {order : Order}
    (front : LevelMap.frontOfBest levels = some order) :
    ∃ level, levels.front?.map Prod.snd = some level ∧
      order.quantity.toUInt64 ≤ level.totalQuantity := by
  cases first : levels.front? with
  | none => simp [LevelMap.frontOfBest, first] at front
  | some entry =>
      obtain ⟨price, level⟩ := entry
      have found := levels.find?_eq_some_iff.mpr (OrderedMap.mem_of_front? first)
      have total := groups.totalQuantity_toNat fits found
      rw [LevelMap.frontOfBest, first] at front
      obtain ⟨node, head, rfl⟩ := Option.map_eq_some_iff.mp front
      obtain ⟨rest, shape⟩ := List.head?_eq_some_iff.mp head
      refine ⟨level, rfl, ?_⟩
      rw [UInt64.le_iff_toNat_le, total, shape, quantitySum_cons, UInt32.toNat_toUInt64]
      exact Nat.le_add_right _ _

/-- The cached total at the front covers the order at the front. -/
theorem Represents.exists_bestLevel {book : OrderBook} {nodes : List OrderNode}
    (rep : Represents book nodes) (fits : quantitySum nodes < 2 ^ 64) {side : Side} {order : Order}
    (front : book.frontOfBest side = some order) :
    ∃ level, book.bestLevel side = some level ∧
      order.quantity.toUInt64 ≤ level.totalQuantity := by
  unfold OrderBook.frontOfBest at front
  unfold OrderBook.bestLevel
  split at front
  · rename_i buy
    rw [if_pos buy]
    exact LevelMap.exists_of_frontOfBest rep.buy fits front
  · rename_i notBuy
    rw [if_neg notBuy]
    exact LevelMap.exists_of_frontOfBest rep.sell fits front

/-- What the loop relies on: a represented book without empty orders whose quantities fit. -/
structure Runnable (state : MatchState) (nodes : List OrderNode) : Prop where
  rep : Represents state.book nodes
  positive : ∀ node ∈ nodes, node.order.quantity ≠ 0
  fits : quantitySum nodes < 2 ^ 64

theorem quantitySum_eq_quantityWhere (nodes : List OrderNode) :
    quantitySum nodes = quantityWhere (fun _ => true) (nodes.map OrderNode.order) := by
  simp [quantitySum, quantityWhere, Function.comp_def]

section Fill

variable {state : MatchState} {nodes : List OrderNode} {node : OrderNode} {traded : UInt32}

/-- A fill keeps what the loop relies on. -/
theorem Runnable.reduced (runnable : Runnable state nodes) (member : node ∈ nodes)
    (enough : traded ≤ node.order.quantity) {next : MatchState}
    (rep : Represents next.book (nodes.filterMap (reduceNode node.order.id traded))) :
    Runnable next (nodes.filterMap (reduceNode node.order.id traded)) := by
  refine ⟨rep, ?_, ?_⟩
  · intro node' member'
    obtain ⟨before, inNodes, reduced⟩ := List.mem_filterMap.mp member'
    obtain ⟨order, reduced', rfl⟩ := Option.map_eq_some_iff.mp reduced
    exact Reference.reduce_quantity_ne_zero (runnable.positive before inNodes) reduced'
  · have ids : ((nodes.map OrderNode.order).map Order.id).Nodup := by
      simpa only [List.map_map, Function.comp_def] using runnable.rep.ids_nodup
    have taken := Reference.quantityWhere_reduce (p := fun _ => true) (fun _ _ _ => rfl) ids
      (List.mem_map_of_mem member) enough
    have fits := runnable.fits
    rw [quantitySum_eq_quantityWhere] at fits ⊢
    rw [map_order_filterMap_reduceNode]
    omega

/-- A whole fill removes one of the orders on its side. -/
theorem Runnable.sideCount_lt (runnable : Runnable state nodes) (member : node ∈ nodes) :
    sideCount node.order.side
        (nodes.filterMap (reduceNode node.order.id node.order.quantity)) <
      sideCount node.order.side nodes := by
  rw [runnable.rep.filterMap_reduceNode_exhausted member, sideCount, sideCount, List.filter_comm,
    List.length_filter_lt_length_iff_exists]
  exact ⟨node, List.mem_filter.mpr ⟨member, by simp⟩, by simp⟩

/-- A whole fill takes the order out of the book. -/
theorem Runnable.not_contains (runnable : Runnable state nodes) (member : node ∈ nodes)
    {book : OrderBook}
    (rep : Represents book (nodes.filterMap (reduceNode node.order.id node.order.quantity))) :
    book.contains node.order.id = false := by
  rw [runnable.rep.filterMap_reduceNode_exhausted member] at rep
  rw [← Bool.not_eq_true, rep.contains_iff]
  rintro ⟨other, inNodes, same⟩
  have different := (List.mem_filter.mp inNodes).2
  exact of_decide_eq_true different same

end Fill

/-- One turn of the loop: it stops, or it iterates and then either the incoming order is
used up or the resting order is gone. -/
theorem Runnable.step {state : MatchState} {nodes : List OrderNode}
    (runnable : Runnable state nodes) :
    matchStep state = .ok none ∨
      ∃ best level trade next nodes', Iteration state best level trade next ∧
        Runnable next nodes' ∧ 0 < sideCount state.order.opposite nodes ∧
        (next.order.quantity = 0 ∨ trade.quantity = best.quantity ∧
          next.book.contains best.id = false ∧
          sideCount state.order.opposite nodes' < sideCount state.order.opposite nodes) := by
  rcases runnable.rep.matchStep_cases with
    ⟨stop, _⟩ | ⟨node, book', view, crosses, opened, rep', step⟩
  · exact Or.inl stop
  have side : node.order.side = state.order.opposite := by
    have accepted := (Reference.pickBest_mem (view.picked crosses)).2
    simp only [Order.accepts, Bool.and_eq_true, decide_eq_true_eq] at accepted
    exact accepted.1
  have some : 1 ≤ min state.order.quantity node.order.quantity := by
    have positive := UInt32.pos_iff_ne_zero.mpr (runnable.positive node view.member)
    exact Std.le_min_iff.mpr ⟨opened, positive⟩
  have part : min state.order.quantity node.order.quantity ≤ state.order.quantity :=
    Std.min_le_left
  have part' : min state.order.quantity node.order.quantity ≤ node.order.quantity :=
    Std.min_le_right
  obtain ⟨level, atFront, covered⟩ := runnable.rep.exists_bestLevel runnable.fits view.front
  have total : (min state.order.quantity node.order.quantity).toUInt64 ≤ level.totalQuantity :=
    UInt64.le_trans (UInt32.toUInt64_le.mpr part') covered
  refine Or.inr ⟨node.order, level, _, _, _,
    ⟨step, view.front, atFront, rfl, rfl, some, part, part', total⟩,
    runnable.reduced view.member part' rep', ?_, ?_⟩
  · exact List.length_pos_of_mem
      (List.mem_filter.mpr ⟨view.member, decide_eq_true_eq.mpr side⟩)
  · by_cases small : state.order.quantity ≤ node.order.quantity
    · have all : min state.order.quantity node.order.quantity = state.order.quantity :=
        if_pos small
      exact Or.inl (by simp [all])
    · have whole : min state.order.quantity node.order.quantity = node.order.quantity :=
        if_neg small
      rw [whole] at rep' ⊢
      rw [← side]
      exact Or.inr ⟨rfl, runnable.not_contains view.member rep', runnable.sideCount_lt view.member⟩

/-! ### The whole loop -/

/-- Every iteration uses up at least one lot of the incoming order. -/
theorem Iteration.quantity_lt {state next : MatchState} {best : Order} {level : PriceLevel}
    {trade : Trade} (iteration : Iteration state best level trade next) :
    next.order.quantity.toNat < state.order.quantity.toNat := by
  have one : 1 ≤ trade.quantity.toNat := UInt32.le_iff_toNat_le.mp iteration.positive
  have part := UInt32.le_iff_toNat_le.mp iteration.incoming
  rw [iteration.left, UInt32.toNat_sub_of_le _ _ iteration.incoming]
  omega

/-- The loop ends. Neither the lots of the incoming order nor the opposing orders last for
more iterations. -/
theorem Runnable.exists_run {state : MatchState} {nodes : List OrderNode}
    (runnable : Runnable state nodes) :
    ∃ trades final, LoopRun state trades final ∧
      trades.length ≤ state.order.quantity.toNat ∧
      trades.length ≤ sideCount state.order.opposite nodes := by
  -- the opposing orders are the measure; the last iteration may leave them as they are
  induction count : sideCount state.order.opposite nodes using Nat.strong_induction_on
    generalizing state nodes with
  | _ count ih =>
      subst count
      rcases runnable.step with stop | ⟨best, level, trade, next, nodes', iteration, runnable',
        some, progress⟩
      · exact ⟨[], state, .done stop, Nat.zero_le _, Nat.zero_le _⟩
      have fewer := iteration.quantity_lt
      rcases progress with used | ⟨whole, removed, less⟩
      · have stop : matchStep next = .ok none := by simp [matchStep, used]
        exact ⟨[trade], next, .last iteration stop, Nat.lt_of_le_of_lt (Nat.zero_le _) fewer, some⟩
      · have sameSide : next.order.opposite = state.order.opposite := by
          rw [iteration.left]
          rfl
        rw [← sameSide] at less
        obtain ⟨trades, final, run, lots, orders⟩ := ih _ (sameSide ▸ less) runnable' rfl
        refine ⟨trade :: trades, final, .more iteration whole removed run, ?_, ?_⟩
        · rw [List.length_cons]
          omega
        · rw [List.length_cons]
          rw [sameSide] at less orders
          omega

/-- The matching loop in every state of a short run, for every order. It ends by its own
condition after at most as many iterations as the order has lots and as the other side has
orders. Every iteration finds an order, trades at least one lot and subtracts it from
quantities that cover it; every trade but the last removes its resting order. -/
theorem matching_loop_bounded (limits : RiskLimits) (commands : List Command)
    (short : commands.length < 2 ^ 32) :
    ∃ engine, (MatchingEngine.fresh limits).runAll commands = .ok engine ∧
      ∀ (order : Order) (outTrades : List Trade), ∃ trades final,
        let start : MatchState :=
          ⟨engine.book, { order with sequence := engine.sequence + 1 }, engine.nextTradeId,
            outTrades⟩
        LoopRun start trades final ∧ matchLoop engine.book.orderCount start = .ok final ∧
        trades.length ≤ min order.quantity.toNat (engine.book.restingOn order.opposite) := by
  obtain ⟨engine, reference, reached, ⟨nodes, sim⟩, sound, few⟩ :=
    exists_refines limits commands short
  refine ⟨engine, reached, ?_⟩
  intro order outTrades
  have runnable : Runnable ⟨engine.book, { order with sequence := engine.sequence + 1 },
      engine.nextTradeId, outTrades⟩ nodes := by
    refine ⟨sim.book, ?_, sim.quantitySum_lt few⟩
    intro node member
    exact (sound.restable node.order (sim.live ▸ List.mem_map_of_mem member)).quantity
  obtain ⟨trades, final, run, lots, orders⟩ := runnable.exists_run
  have resting : engine.book.restingOn order.opposite = sideCount order.opposite nodes :=
    (sim.book.nodes_perm.filter _).length_eq
  have all : sideCount order.opposite nodes ≤ engine.book.orderCount := by
    rw [sim.book.orderCount_eq]
    exact List.length_filter_le _ _
  refine ⟨trades, final, run, run.matchLoop_eq (Nat.le_trans orders all), ?_⟩
  rw [resting]
  exact Nat.le_min.mpr ⟨lots, orders⟩

/-- A book with two resting SELL orders. -/
theorem matching_loop_bounded_two :
    let commands : List Command :=
      [.newOrder { id := 1, side := .sell, price := 100, quantity := 10 },
        .newOrder { id := 2, side := .sell, price := 101, quantity := 5 }]
    ∃ engine, (MatchingEngine.fresh {}).runAll commands = .ok engine ∧
      ∀ (order : Order) (outTrades : List Trade), ∃ trades final,
        LoopRun ⟨engine.book, { order with sequence := engine.sequence + 1 },
          engine.nextTradeId, outTrades⟩ trades final ∧
        trades.length ≤ min order.quantity.toNat (engine.book.restingOn order.opposite) := by
  intro commands
  obtain ⟨engine, reached, bounded⟩ := matching_loop_bounded {} commands (by decide)
  refine ⟨engine, reached, ?_⟩
  intro order outTrades
  obtain ⟨trades, final, run, _, few⟩ := bounded order outTrades
  exact ⟨trades, final, run, few⟩

end Lob
