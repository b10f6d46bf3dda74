import Lob.MPMCMain.Engines
import Lob.MPMCMain.Orders

/-!
# What `mpmc_matching_main` prints

When the program returns, its summary is exact: every order of every producer has been
produced, popped and submitted once, all of them were accepted, and the trades are those of
engines that process the orders of each symbol one after the other. Which of the last trades of
a symbol it shows as the most recent one depends on how the consumers have recorded them.
-/

namespace Lob

namespace MPMCMain

variable {args : MPMCArgs} {state next : MPMCMain args} {event : MPMCMainEvent args}

/-! ### The summary -/

/-- When the main thread has returned, all other threads have ended. -/
theorem Placed.over (placed : state.Placed) {summary : MPMCSummary}
    (returned : state.main = .returned summary) :
    (∀ id, state.producers id = .returned) ∧ ∀ id, state.consumers id = .exited :=
  ⟨fun id => placed.joinedProducers id (by rw [returned]; exact id.isLt),
    fun id => placed.joinedConsumers id (by rw [returned]; exact id.isLt)⟩

/-- The producer that moves has not returned, and the main thread stays where it is. -/
theorem ProducerMoves.running (moves : state.ProducerMoves next) :
    next.main = state.main ∧ ∃ id, state.producers id ≠ .returned := by
  cases moves <;> exact ⟨rfl, _, ne_of_eq_of_ne ‹state.producers _ = _› (by simp)⟩

/-- The consumer that moves has not exited, and the main thread stays where it is. -/
theorem ConsumerMoves.running (moves : state.ConsumerMoves next) :
    next.main = state.main ∧ ∃ id, state.consumers id ≠ .exited := by
  cases moves <;> exact ⟨rfl, _, ne_of_eq_of_ne ‹state.consumers _ = _› (by simp)⟩

/-- The main thread returns with the summary of the state it is in. -/
theorem MainMoves.printed (moves : state.MainMoves next) {summary : MPMCSummary}
    (returned : next.main = .returned summary) : summary = next.summary := by
  cases moves with
  | shuts closing _ => exact absurd (closing.symm.trans returned) (by simp)
  | tells closing _ _ => exact absurd (closing.symm.trans returned) (by simp)
  | prints _ _ => exact (MPMCMainPoint.returned.inj returned).symm
  | _ => contradiction

/-- The printed summary stays true. -/
theorem Moves.printed (moves : state.Moves event next) (placed : state.Placed)
    (printed : ∀ summary, state.main = .returned summary → summary = state.summary) :
    ∀ summary, next.main = .returned summary → summary = next.summary := by
  intro summary returned
  cases moves with
  | stays _ => exact printed summary returned
  | wakes _ _ _ _ => exact printed summary returned
  | producer moves =>
      obtain ⟨main, id, running⟩ := moves.running
      exact absurd ((placed.over (main.symm.trans returned)).1 id) running
  | consumer moves =>
      obtain ⟨main, id, running⟩ := moves.running
      exact absurd ((placed.over (main.symm.trans returned)).2 id) running
  | main moves => exact moves.printed returned

/-- All that is known about a reachable state. -/
structure Accounts (state : MPMCMain args) : Prop where
  runs : state.Runs
  fifo : MPMCRun.Fifo args.queueCapacity state.queue
  issues : state.Issues
  hands : state.Hands
  counted : state.Counted
  sequences : ∀ symbol, state.Sequences symbol
  logged : ∀ symbol, ∃ recorded, state.engine.Logged symbol recorded
  printed : ∀ summary, state.main = .returned summary → summary = state.summary

theorem accounts_initial (args : MPMCArgs) : (initial args).Accounts where
  runs := runs_initial args
  fifo := MPMCRun.fifo_initial _ args.queuePositive
  issues := issues_initial args
  hands := hands_initial args
  counted := counted_initial args
  sequences := sequences_initial args
  logged symbol := ⟨[], ShardedEngine.logged_initial _ symbol⟩
  printed _ returned := absurd returned nofun

theorem Accounts.step (accounts : state.Accounts) (event : MPMCMainEvent args) :
    (state.step event).Accounts := by
  have placed := accounts.runs.placed
  have moves := step_moves placed accounts.runs.steady event
  obtain ⟨queue, engine⟩ := state.step_components event
  refine ⟨accounts.runs.step event, ?_, accounts.issues.moves placed moves,
    accounts.hands.moves placed moves, accounts.counted.moves placed moves,
    fun symbol => (accounts.sequences symbol).moves moves, fun symbol => ?_,
    moves.printed placed accounts.printed⟩
  · rcases queue with same | ⟨step, moved⟩
    · rw [same]
      exact accounts.fifo
    · rw [moved]
      exact accounts.fifo.moves (state.queue.step_moves step)
  · rw [engine]
    cases state.engineEvent? event with
    | none => exact accounts.logged symbol
    | some step =>
        obtain ⟨recorded, logged⟩ := accounts.logged symbol
        exact logged.acts accounts.runs.steady (state.engine.step_acts step)

theorem accounts_run (args : MPMCArgs) (events : List (MPMCMainEvent args)) :
    (Schedule.run step (initial args) events).Accounts :=
  Schedule.run_invariant (P := Accounts) (fun _ event accounts => accounts.step event)
    (accounts_initial args) events

/-! ### The end -/

/-- The program has returned. -/
structure Ended (state : MPMCMain args) : Prop where
  accounts : state.Accounts
  producers : ∀ id, state.producers id = .returned
  consumers : ∀ id, state.consumers id = .exited
  main : ∃ summary, state.main = .returned summary

theorem Ended.points (ended : state.Ended) (thread : Fin args.threads) :
    state.queue.points thread = .outside := by
  have placed := ended.accounts.runs.placed
  rcases thread_cases thread with ⟨id, rfl⟩ | ⟨id, rfl⟩ | rfl
  · have here := placed.consumers id
    rw [ended.consumers] at here
    exact here
  · have here := placed.producers id
    rw [ended.producers] at here
    exact here
  · obtain ⟨summary, returned⟩ := ended.main
    have here := placed.main
    rw [returned] at here
    exact here

theorem Ended.workers (ended : state.Ended) (id : Fin args.consumers) :
    state.engine.workers id = .outside := by
  have works := ended.accounts.runs.placed.workers id
  rw [ended.consumers] at works
  exact works

/-- Every order that was produced has been submitted. -/
theorem Ended.submitted_perm (ended : state.Ended) (consumers : 0 < args.consumers) :
    (state.submitted.map SubmittedOrder.item).Perm (pushedItems state.queue.history) := by
  have drained := (ended.accounts.runs.placed.drained ⟨0, consumers⟩ (ended.consumers _)).2
  rw [ended.accounts.fifo.order, drained, List.append_nil, List.perm_iff_count]
  intro item
  have balance := ended.accounts.hands.popped (· == item)
  rw [Finset.sum_eq_zero (fun id _ => by rw [ended.consumers]; rfl), Nat.add_zero] at balance
  rw [List.count_eq_countP, List.count_eq_countP, balance]

/-- The ids of the submitted orders are those that were handed out. -/
theorem Ended.ids_perm (ended : state.Ended) (consumers : 0 < args.consumers) :
    (state.submitted.map (fun entry => entry.item.order.id)).Perm
      (firstIds (args.producers * args.ordersPerProducer)) := by
  have pushed : ((pushedItems state.queue.history).map (fun item => item.order.id)).Perm
      (firstIds (args.producers * args.ordersPerProducer)) := by
    rw [List.perm_iff_count]
    intro orderId
    have issued : (∑ id, args.issued (state.producers id)) =
        args.producers * args.ordersPerProducer := by
      rw [Finset.sum_congr rfl (fun id _ => by rw [ended.producers id]), Finset.sum_const,
        Finset.card_univ, Fintype.card_fin, smul_eq_mul]
      rfl
    have taken := ended.accounts.issues.taken (· == orderId)
    rw [Finset.sum_eq_zero (fun thread _ => by rw [ended.points]; rfl), Nat.add_zero, issued]
      at taken
    rw [List.count_eq_countP, List.count_eq_countP, List.countP_map, ← taken]
    rfl
  have same := (ended.submitted_perm consumers).map (fun item => item.order.id)
  rw [List.map_map] at same
  exact same.trans pushed

/-! ### All orders are accepted -/

/-- What a producer fills in, with an id that is not zero. -/
theorem plain_of_generated {item : SymbolOrder} (generated : item.Generated)
    (nonzero : item.order.id ≠ 0) : item.order.Plain := by
  obtain ⟨symbol, id, draw, rfl⟩ := generated
  exact draw.plain (by decide) (by decide) nonzero

theorem newIds_orders (entries : List SubmittedOrder) :
    newIds (entries.map (fun entry => .newOrder entry.item.order)) =
      entries.map (fun entry => entry.item.order.id) := by
  rw [newIds, List.filterMap_map]
  exact congrFun List.filterMap_eq_map entries

theorem Ended.plain (ended : state.Ended) (consumers : 0 < args.consumers)
    (fits : args.producers * args.ordersPerProducer < 2 ^ 64) {entry : SubmittedOrder}
    (member : entry ∈ state.submitted) : entry.item.order.Plain := by
  refine plain_of_generated (ended.accounts.hands.generated entry member)
    (ne_zero_of_mem_firstIds fits ?_)
  exact (ended.ids_perm consumers).mem_iff.mp (List.mem_map.mpr ⟨entry, member, rfl⟩)

theorem Ended.accepted (ended : state.Ended) (consumers : 0 < args.consumers)
    (fits : args.producers * args.ordersPerProducer < 2 ^ 64) {entry : SubmittedOrder}
    (member : entry ∈ state.submitted) : entry.response.report.accepted = true := by
  have run := (ended.accounts.sequences entry.item.symbol).run
  have own : (state.submittedTo entry.item.symbol).Sublist state.submitted := List.filter_sublist
  have distinct : (state.submitted.map (fun entry => entry.item.order.id)).Nodup :=
    (ended.ids_perm consumers).nodup_iff.mpr (nodup_firstIds fits)
  have answers := (consistent_fresh {}).forall_expects rfl
    (fun command inCommands => by
      obtain ⟨other, inOwn, rfl⟩ := List.mem_map.mp inCommands
      exact (ended.plain consumers fits (own.subset inOwn)).ordinary)
    (by
      rw [newIds_orders]
      exact distinct.sublist (own.map _))
    (fun _ _ => Finset.notMem_empty _) run
  rw [List.forall₂_map_left_iff, List.forall₂_map_right_iff, List.forall₂_same] at answers
  obtain ⟨reason, accepted⟩ :=
    answers entry (List.mem_filter.mpr ⟨member, decide_eq_true rfl⟩)
  have only : Command.possibleReasons (.newOrder entry.item.order) = [.none] :=
    (ended.plain consumers fits member).possibleReasons
  rw [only] at reason
  exact accepted.mpr (List.mem_singleton.mp reason)

end MPMCMain

/-! ### What the summary says -/

/-- The trades of some orders. -/
def submittedTrades (orders : List SubmittedOrder) : List Trade :=
  orders.flatMap (fun entry => entry.response.outTrades)

/-- The line of a symbol, given the orders of the symbol: its engine has processed them one
after the other, the book is that of this run, the number of trades in the log is that of the
run, at most 200, and the trade that is shown is one of the run. -/
structure SymbolSummary.Shows (line : SymbolSummary) (orders : List SubmittedOrder) : Prop where
  sequential : (MatchingEngine.fresh {}).responses
      (orders.map (fun entry => .newOrder entry.item.order)) =
    .ok (orders.map SubmittedOrder.response)
  book : line.book = orders.getLast?.map (fun entry => .of entry.response.engine)
  lastTrades : line.lastTrades = min 200 (submittedTrades orders).length
  noTrade : line.mostRecent = none ↔ submittedTrades orders = []
  mostRecent : ∀ trade, line.mostRecent = some trade → trade ∈ submittedTrades orders

/-- The summary is exact. -/
structure MPMCSummary.Exact (summary : MPMCSummary) (args : MPMCArgs)
    (submitted : List SubmittedOrder) : Prop where
  /-- every order of every producer has been submitted once -/
  once : (submitted.map (fun entry => entry.item.order.id)).Perm
    (firstIds (args.producers * args.ordersPerProducer))
  accepted : ∀ entry ∈ submitted, entry.response.report.accepted = true
  produced : summary.produced.toNat = args.producers * args.ordersPerProducer
  consumed : summary.consumed.toNat = args.producers * args.ordersPerProducer
  trades : summary.trades =
    UInt64.ofNat (submitted.map (fun entry => entry.response.outTrades.length)).sum
  lines : summary.symbols.map SymbolSummary.symbol = mpmcSymbols.toList
  shows : ∀ line ∈ summary.symbols, line.Shows
    (submitted.filter (fun entry => decide (entry.item.symbol = line.symbol)))

namespace MPMCMain

variable {args : MPMCArgs} {state : MPMCMain args}

/-- In the end the log has recorded every trade of a symbol. -/
theorem Ended.logged (ended : state.Ended) (symbol : Symbol) :
    ∃ recorded : List Trade, state.engine.tradeLog.bySymbol symbol = recorded.rtake 200 ∧
      recorded.Perm (submittedTrades (state.submittedTo symbol)) := by
  obtain ⟨recorded, logged⟩ := ended.accounts.logged symbol
  refine ⟨recorded, logged.window, ?_⟩
  rw [submittedTrades, ← (ended.accounts.sequences symbol).trades, List.perm_iff_count]
  intro trade
  have balance := logged.balance (· == trade)
  rw [Finset.sum_eq_zero (fun id _ => by rw [ended.workers]; rfl), Nat.add_zero] at balance
  exact balance

/-- The trade that is shown is the last one recorded. -/
theorem mostRecent_of_window {log : TradeLog} {symbol : Symbol} {recorded : List Trade}
    (window : log.bySymbol symbol = recorded.rtake 200) :
    (log.recent symbol 3).getLast? = recorded.getLast? := by
  rw [TradeLog.recent_eq_rtake, window, Window.getLast?_rtake (by decide),
    Window.getLast?_rtake (by decide)]

theorem Ended.shows (ended : state.Ended) (symbol : Symbol) :
    SymbolSummary.Shows
      { symbol
        book := state.engine.snapshot symbol
        lastTrades := state.engine.tradeLog.count symbol
        mostRecent := (state.engine.tradeLog.recent symbol 3).getLast? }
      (state.submittedTo symbol) := by
  obtain ⟨recorded, window, all⟩ := ended.logged symbol
  have sequences := ended.accounts.sequences symbol
  rw [mostRecent_of_window window]
  refine ⟨sequences.run, ?_, ?_, ?_, fun trade last => ?_⟩
  · rw [ShardedEngine.snapshot, sequences.last, Option.map_map]
    rfl
  · rw [TradeLog.count, window, Window.length_rtake, all.length_eq]
  · rw [List.getLast?_eq_none_iff]
    exact ⟨fun none => List.nil_perm.mp (none ▸ all), fun none => List.perm_nil.mp (none ▸ all)⟩
  · exact all.mem_iff.mp (List.mem_of_getLast? last)

/-- If the log is in order, the trade that is shown is the last one that the engine has made. -/
theorem Ended.mostRecent_of_ordered (ended : state.Ended) {symbol : Symbol}
    (ordered : state.engine.OrderedAt symbol) :
    (state.engine.tradeLog.recent symbol 3).getLast? =
      (submittedTrades (state.submittedTo symbol)).getLast? := by
  obtain ⟨recorded, pending, all, window, held⟩ := ordered
  obtain rfl := held.eq_nil (fun id => by rw [ended.workers]; rfl)
  rw [ended.accounts.runs.steady.depth] at window
  rw [mostRecent_of_window window, submittedTrades, ← (ended.accounts.sequences symbol).trades, all,
    List.append_nil]

/-- When the program returns, its summary is exact, however its threads were interleaved and
whatever its producers have drawn. If no two consumers had trades of one symbol to record at
the same time, the trade that is shown for a symbol is its last one. -/
theorem summary_exact (args : MPMCArgs) (consumers : 0 < args.consumers)
    (fits : args.producers * args.ordersPerProducer < 2 ^ 64)
    (events : List (MPMCMainEvent args)) {summary : MPMCSummary}
    (returned : (Schedule.run step (initial args) events).main = .returned summary) :
    let submitted := (Schedule.run step (initial args) events).submitted
    summary.Exact args submitted ∧
      (Schedule.Respects step Orderly (initial args) events →
        ∀ line ∈ summary.symbols, line.mostRecent = (submittedTrades (submitted.filter
          (fun entry => decide (entry.item.symbol = line.symbol)))).getLast?) := by
  have accounts := accounts_run args events
  have ordered (orderly : Schedule.Respects step Orderly (initial args) events) :=
    orderedAt_run orderly
  generalize Schedule.run step (initial args) events = state at accounts returned ordered ⊢
  obtain ⟨producers, exited⟩ := accounts.runs.placed.over returned
  have ended : state.Ended := ⟨accounts, producers, exited, summary, returned⟩
  have once := ended.ids_perm consumers
  have number : (UInt64.ofNat (args.producers * args.ordersPerProducer)).toNat =
      args.producers * args.ordersPerProducer := UInt64.toNat_ofNat_of_lt' fits
  obtain rfl := accounts.printed summary returned
  refine ⟨⟨once, fun _ => ended.accepted consumers fits, ?_, ?_, ?_, ?_, ?_⟩,
    fun orderly line member => ?_⟩
  · have counted : (∑ id, args.counted (state.producers id)) =
        args.producers * args.ordersPerProducer := by
      rw [Finset.sum_congr rfl (fun id _ => by rw [producers id]), Finset.sum_const,
        Finset.card_univ, Fintype.card_fin, smul_eq_mul]
      rfl
    rw [summary, accounts.counted.produced, counted, number]
  · have tally := accounts.counted.consumed
    rw [Finset.sum_eq_zero (fun id _ => by rw [exited]; rfl)] at tally
    have length := once.length_eq
    rw [List.length_map, length_firstIds] at length
    rw [summary, tally.eq_of_settled, length, number]
  · have tally := accounts.counted.trades
    rw [Finset.sum_eq_zero (fun id _ => by rw [exited]; rfl)] at tally
    exact tally.eq_of_settled
  · rw [summary, List.map_map]
    exact List.map_id _
  · intro line member
    obtain ⟨symbol, _, rfl⟩ := List.mem_map.mp member
    exact ended.shows symbol
  · obtain ⟨symbol, _, rfl⟩ := List.mem_map.mp member
    exact ended.mostRecent_of_ordered (ordered orderly symbol)

/-- Two consumers share the two orders of one producer, a sale and a purchase that trade. -/
theorem summary_exact_two_orders :
    let args : MPMCArgs :=
      { producers := 1, consumers := 2, ordersPerProducer := 2, queueCapacity := 1
        queuePositive := by decide }
    let draw (buy : Bool) : Draw 9900 10100 100 :=
      ⟨buy, 10000, 5, 0, by decide, by decide, by decide, by decide⟩
    let round (buy : Bool) : List (MPMCMainEvent args) :=
      [.consumer 0 args.mainThread, .producer 0 0 (draw buy) args.mainThread,
        .consumer 1 args.mainThread, .main args.mainThread]
    let final := Schedule.run step (initial args)
      (((List.replicate 4 (round false)) ++ List.replicate 16 (round true)).flatten)
    0 < args.consumers ∧ final.main = .returned final.summary ∧ final.summary.trades = 1 ∧
      final.summary.Exact args final.submitted ∧
      ∀ line ∈ final.summary.symbols, line.mostRecent = (submittedTrades (final.submitted.filter
        (fun entry => decide (entry.item.symbol = line.symbol)))).getLast? := by
  intro args draw round final
  have returned : final.main = .returned final.summary := by decide +kernel
  obtain ⟨exact, inOrder⟩ := summary_exact args (by decide) (by decide) _ returned
  exact ⟨by decide, returned, by decide +kernel, exact, inOrder (by decide +kernel)⟩

end MPMCMain

end Lob
