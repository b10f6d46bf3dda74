import Lob.MPMCMain.Advances
import Lob.MPMCQueue.Fifo
import Lob.PartitionedEngine.Stats

/-!
# From the producers to the engines

The orders of `mpmc_matching_main` are followed from hand to hand. A producer takes an id and
carries its order into the queue, a consumer takes it out and hands it to an engine; each
counter lags behind by what the threads have yet to count.
-/

namespace Lob

/-- How many orders a producer has counted. -/
def MPMCArgs.counted (args : MPMCArgs) : MPMCProducerPoint → Nat
  | .generating i => i
  | .pushing i => i
  | .counting i => i
  | .returned => args.ordersPerProducer

/-- The submitted orders that a consumer has yet to count. -/
def MPMCConsumerPoint.uncounted : MPMCConsumerPoint → SubmitPoint → Nat
  | .submitting _, .recording _ _ _ => 1
  | .countingTrades _, _ => 1
  | .countingOrder, _ => 1
  | _, _ => 0

/-- The trades that a consumer has yet to count. -/
def MPMCConsumerPoint.uncountedTrades : MPMCConsumerPoint → SubmitPoint → Nat
  | .submitting _, .recording _ _ tradeCount => tradeCount
  | .countingTrades tradeCount, _ => tradeCount
  | _, _ => 0

namespace MPMCMain

variable {args : MPMCArgs} {state next : MPMCMain args} {event : MPMCMainEvent args}
variable {id : Fin args.consumers} {point : MPMCConsumerPoint} {worker : SubmitPoint} {gain : Nat}

/-! ### The ids -/

/-- The ids that were handed out are those of the orders that were pushed or are carried. -/
structure Issues (state : MPMCMain args) : Prop where
  next : state.idGen = UInt64.ofNat ((∑ id, args.issued (state.producers id)) + 1)
  taken : ∀ kind : UInt64 → Bool,
    (pushedItems state.queue.history).countP (fun item => kind item.order.id) +
        ∑ thread, (state.queue.points thread).carried.countP (fun item => kind item.order.id) =
      (firstIds (∑ id, args.issued (state.producers id))).countP kind

theorem issues_initial (args : MPMCArgs) : (initial args).Issues where
  next := by simp [initial, MPMCArgs.issued]
  taken kind := by
    simp [initial, MPMCRun.initial, MPMCPoint.carried, pushedItems, MPMCArgs.issued, firstIds]

/-- No id is handed out, and no order enters the queue. -/
theorem Issues.keep (issues : state.Issues) {before after : MPMCPoint SymbolOrder}
    (idGen : next.idGen = state.idGen)
    (issued : (∑ id, args.issued (next.producers id)) = ∑ id, args.issued (state.producers id))
    (pushed : pushedItems next.queue.history = pushedItems state.queue.history)
    (shifts : Shifts state next before after gain) (quiet : after.carried = before.carried) :
    next.Issues where
  next := by rw [idGen, issued, issues.next]
  taken kind := by
    have carried := shifts.carried (fun items => items.countP (fun item => kind item.order.id))
    rw [quiet] at carried
    rw [pushed, issued, ← issues.taken, Nat.add_right_cancel carried]

/-- One producer goes on without taking an id. -/
theorem sum_issued {id : Fin args.producers} {point : MPMCProducerPoint}
    (producers : next.producers = Function.update state.producers id point)
    (same : args.issued point = args.issued (state.producers id)) :
    (∑ other, args.issued (next.producers other)) =
      ∑ other, args.issued (state.producers other) := by
  have sum := Waiting.sum_update args.issued state.producers id point
  rw [producers]
  omega

theorem carried_push (item : SymbolOrder) : (MPMCPoint.locking (.push item)).carried = [item] := rfl

/-- A producer takes an id. -/
theorem Issues.issue (issues : state.Issues) {id : Fin args.producers} {i : Nat} {symbol : Symbol}
    {draw : Draw 9900 10100 100} (generating : state.producers id = .generating i)
    (producers : next.producers = Function.update state.producers id (.pushing i))
    (idGen : next.idGen = state.idGen + 1)
    (pushed : pushedItems next.queue.history = pushedItems state.queue.history)
    (shifts : Shifts state next .outside
      (.locking (.push ⟨symbol, producerOrder state.idGen draw⟩)) gain) : next.Issues := by
  have sum := Waiting.sum_update args.issued state.producers id (.pushing i)
  have old : args.issued (state.producers id) = i := by
    rw [generating]
    rfl
  have new : args.issued (.pushing i) = i + 1 := rfl
  rw [old, new, ← producers] at sum
  replace sum : (∑ other, args.issued (next.producers other)) =
      (∑ other, args.issued (state.producers other)) + 1 := by omega
  refine ⟨?_, fun kind => ?_⟩
  · rw [idGen, sum, issues.next]
    exact (UInt64.ofNat_add _ 1).symm
  · have carried := shifts.carried (fun items => items.countP (fun item => kind item.order.id))
    have named : (producerOrder state.idGen draw).id =
        UInt64.ofNat ((∑ other, args.issued (state.producers other)) + 1) := issues.next
    have before := issues.taken kind
    rw [show MPMCPoint.outside.carried = [] from rfl, carried_push, List.countP_nil,
      List.countP_singleton, named] at carried
    rw [pushed, sum, firstIds_succ, List.countP_append, List.countP_singleton]
    omega

/-- A carried order enters the queue. -/
theorem Issues.push (issues : state.Issues) {item : SymbolOrder} {after : MPMCPoint SymbolOrder}
    (idGen : next.idGen = state.idGen) (producers : next.producers = state.producers)
    (history : next.queue.history = state.queue.history ++ [.pushed item])
    (shifts : Shifts state next (.locking (.push item)) after gain) (empty : after.carried = []) :
    next.Issues where
  next := by rw [idGen, producers, issues.next]
  taken kind := by
    have carried := shifts.carried (fun items => items.countP (fun item => kind item.order.id))
    have before := issues.taken kind
    rw [empty, carried_push, List.countP_nil, List.countP_singleton] at carried
    rw [history, pushedItems_concat, producers, List.countP_append]
    simp only [MPMCOutcome.pushedItem, Option.toList, List.countP_singleton]
    omega

theorem Issues.producerMoves (issues : state.Issues) (placed : state.Placed)
    (moves : state.ProducerMoves next) : next.Issues := by
  cases moves with
  | @generates id i symbol draw generating more =>
      have here := placed.producers id
      rw [generating] at here
      exact issues.issue generating rfl rfl rfl (shifts_update here.2 rfl)
  | @finishes id i generating done =>
      have here := placed.producers id
      rw [generating] at here
      have all : args.ordersPerProducer = i := Nat.le_antisymm (Nat.not_lt.mp done) here.1
      exact issues.keep rfl (sum_issued rfl (by rw [generating]; exact all)) rfl
        (shifts_refl (by rfl) .outside) rfl
  | @blocksPush id i item pushing locking =>
      exact issues.keep rfl rfl rfl (shifts_update locking rfl) rfl
  | @pushes id i item queue pushing locking inserts =>
      exact issues.push rfl rfl rfl (shifts_update locking rfl) rfl
  | @announces id i run pushing here notifies =>
      refine issues.keep rfl (sum_issued rfl (by rw [pushing]; rfl)) ?_
        (shifts_notifies here notifies) rfl
      simp only [setProducer, notifies.history]
  | @counts id i counting =>
      exact issues.keep rfl (sum_issued rfl (by rw [counting]; rfl)) rfl
        (shifts_refl (by rfl) .outside) rfl

theorem Issues.consumerMoves (issues : state.Issues) (placed : state.Placed)
    (moves : state.ConsumerMoves next) : next.Issues := by
  cases moves with
  | @calls id calling =>
      have here := placed.consumers id
      rw [calling] at here
      exact issues.keep rfl rfl rfl (shifts_update here rfl) rfl
  | @blocksPop id popping locking =>
      exact issues.keep rfl rfl rfl (shifts_update locking rfl) rfl
  | @pops id item rest popping locking front =>
      refine issues.keep rfl rfl ?_ (shifts_update locking rfl) rfl
      exact (pushedItems_concat _ _).trans (List.append_nil _)
  | @drains id popping locking closed empty =>
      refine issues.keep rfl rfl ?_ (shifts_update locking rfl) rfl
      exact (pushedItems_concat _ _).trans (List.append_nil _)
  | @leaves id item run leaving notifies =>
      have here := placed.consumers id
      rw [leaving] at here
      refine issues.keep rfl rfl ?_ (shifts_notifies here.2 notifies) rfl
      simp only [setConsumer, notifies.history]
  | _ => exact issues.keep rfl rfl rfl (shifts_refl (by rfl) .outside) rfl

theorem Issues.mainMoves (issues : state.Issues) (placed : state.Placed)
    (moves : state.MainMoves next) : next.Issues := by
  cases moves with
  | @closes index joining done =>
      have here := placed.main
      rw [joining] at here
      exact issues.keep rfl rfl rfl (shifts_update here rfl) rfl
  | shuts closing locking =>
      refine issues.keep rfl rfl ?_ (shifts_update locking rfl) rfl
      exact (pushedItems_concat _ _).trans (List.append_nil _)
  | tells closing here notifies =>
      refine issues.keep rfl rfl ?_ (shifts_notifies here notifies) rfl
      simp only [notifies.history]
  | closed closing here notifies =>
      refine issues.keep rfl rfl ?_ (shifts_notifies here notifies) rfl
      simp only [notifies.history]
  | _ => exact issues.keep rfl rfl rfl (shifts_refl (by rfl) .outside) rfl

theorem Issues.moves (issues : state.Issues) (placed : state.Placed)
    (moves : state.Moves event next) : next.Issues := by
  cases moves with
  | stays _ => exact issues
  | wakes _ _ history woken =>
      exact issues.keep rfl rfl (congrArg pushedItems history) (shifts_woken woken .outside) rfl
  | producer moves => exact issues.producerMoves placed moves
  | consumer moves => exact issues.consumerMoves placed moves
  | main moves => exact issues.mainMoves placed moves

/-! ### From the queue to the engines -/

/-- What was popped has been submitted or is held by a consumer. -/
structure Hands (state : MPMCMain args) : Prop where
  popped : ∀ kind : SymbolOrder → Bool, (poppedItems state.queue.history).countP kind =
    (state.submitted.map SubmittedOrder.item).countP kind +
      ∑ id, ((state.consumers id).held (state.engine.workers id)).countP kind
  generated : ∀ entry ∈ state.submitted, entry.item.Generated

theorem hands_initial (args : MPMCArgs) : (initial args).Hands where
  popped kind := by
    simp [initial, MPMCRun.initial, ShardedEngine.initial, poppedItems, MPMCConsumerPoint.held]
  generated _ member := absurd member List.not_mem_nil

/-- No consumer moves. -/
theorem Hands.keep (hands : state.Hands) (consumers : next.consumers = state.consumers)
    (engine : next.engine = state.engine) (submitted : next.submitted = state.submitted)
    (popped : poppedItems next.queue.history = poppedItems state.queue.history) : next.Hands where
  popped kind := by rw [popped, submitted, consumers, engine, hands.popped]
  generated := by
    rw [submitted]
    exact hands.generated

/-- A consumer takes orders out of the queue, holds them, or submits them. -/
theorem Hands.consumer (hands : state.Hands) {taken : List SymbolOrder} {done : List SubmittedOrder}
    (consumers : next.consumers = Function.update state.consumers id point)
    (workers : next.engine.workers = Function.update state.engine.workers id worker)
    (popped : poppedItems next.queue.history = poppedItems state.queue.history ++ taken)
    (submitted : next.submitted = state.submitted ++ done)
    (balance : taken ++ (state.consumers id).held (state.engine.workers id) =
      done.map SubmittedOrder.item ++ point.held worker)
    (generated : ∀ entry ∈ done, entry.item.Generated) : next.Hands where
  popped kind := by
    have sum := sum_consumers (fun point worker => (point.held worker).countP kind) consumers
      workers
    have counted := congrArg (List.countP kind) balance
    have before := hands.popped kind
    rw [List.countP_append, List.countP_append] at counted
    rw [popped, submitted, List.map_append, List.countP_append, List.countP_append]
    omega
  generated entry member := by
    rw [submitted] at member
    exact (List.mem_append.mp member).elim (hands.generated entry) (generated entry)

/-- A consumer goes on with what it holds. -/
theorem Hands.walk (hands : state.Hands)
    (consumers : next.consumers = Function.update state.consumers id point)
    (workers : next.engine.workers = Function.update state.engine.workers id worker)
    (submitted : next.submitted = state.submitted)
    (popped : poppedItems next.queue.history = poppedItems state.queue.history)
    (held : (state.consumers id).held (state.engine.workers id) = point.held worker) :
    next.Hands :=
  hands.consumer consumers workers (popped.trans (List.append_nil _).symm)
    (submitted.trans (List.append_nil _).symm) held (fun _ none => absurd none List.not_mem_nil)

theorem Hands.producerMoves (hands : state.Hands) (moves : state.ProducerMoves next) :
    next.Hands := by
  cases moves with
  | pushes pushing locking inserts =>
      exact hands.keep rfl rfl rfl ((poppedItems_concat _ _).trans (List.append_nil _))
  | announces pushing here notifies =>
      exact hands.keep rfl rfl rfl (congrArg poppedItems notifies.history)
  | _ => exact hands.keep rfl rfl rfl rfl

theorem Hands.consumerMoves (hands : state.Hands) (placed : state.Placed)
    (moves : state.ConsumerMoves next) : next.Hands := by
  cases moves with
  | @calls id calling =>
      exact hands.walk rfl (state.workers_self id) rfl rfl (by rw [calling]; rfl)
  | @pops id item rest popping locking front =>
      refine hands.consumer rfl (state.workers_self id) (poppedItems_concat _ _)
        (List.append_nil _).symm ?_ (fun _ none => absurd none List.not_mem_nil)
      rw [popping]
      rfl
  | @drains id popping locking closed empty =>
      exact hands.walk rfl (state.workers_self id) rfl
        ((poppedItems_concat _ _).trans (List.append_nil _)) (by rw [popping]; rfl)
  | @leaves id item run leaving notifies =>
      have works := placed.workers id
      rw [leaving] at works
      exact hands.walk rfl (state.workers_self id) rfl (congrArg poppedItems notifies.history)
        (by rw [leaving, works]; rfl)
  | @submits id item response submitting outside processed =>
      have here := placed.consumers id
      rw [submitting] at here
      refine hands.consumer (state.consumers_self id) rfl (List.append_nil _).symm rfl ?_ ?_
      · rw [submitting, outside]
        rfl
      · intro entry member
        rw [List.mem_singleton.mp member]
        exact here.1
  | @records id item trade trades tradeCount submitting recording =>
      exact hands.walk (state.consumers_self id) rfl rfl rfl (by rw [submitting, recording]; rfl)
  | @returns id item tradeCount submitting recorded =>
      exact hands.walk rfl rfl rfl rfl (by rw [submitting, recorded]; rfl)
  | @countsTrades id tradeCount counting =>
      exact hands.walk rfl (state.workers_self id) rfl rfl (by rw [counting]; rfl)
  | @countsOrder id counting =>
      exact hands.walk rfl (state.workers_self id) rfl rfl (by rw [counting]; rfl)
  | _ => exact hands.keep rfl rfl rfl rfl

theorem Hands.mainMoves (hands : state.Hands) (moves : state.MainMoves next) :
    next.Hands := by
  cases moves with
  | shuts closing locking =>
      exact hands.keep rfl rfl rfl ((poppedItems_concat _ _).trans (List.append_nil _))
  | tells closing here notifies =>
      exact hands.keep rfl rfl rfl (congrArg poppedItems notifies.history)
  | closed closing here notifies =>
      exact hands.keep rfl rfl rfl (congrArg poppedItems notifies.history)
  | _ => exact hands.keep rfl rfl rfl rfl

theorem Hands.moves (hands : state.Hands) (placed : state.Placed)
    (moves : state.Moves event next) : next.Hands := by
  cases moves with
  | stays _ => exact hands
  | wakes _ _ history _ => exact hands.keep rfl rfl rfl (congrArg poppedItems history)
  | producer moves => exact hands.producerMoves moves
  | consumer moves => exact hands.consumerMoves placed moves
  | main moves => exact hands.mainMoves moves

/-! ### The counters -/

/-- How far the counters lag behind. -/
structure Counted (state : MPMCMain args) : Prop where
  produced : state.produced = UInt64.ofNat (∑ id, args.counted (state.producers id))
  consumed : Tally state.consumed
    (∑ id, (state.consumers id).uncounted (state.engine.workers id)) state.submitted.length
  trades : Tally state.tradesGenerated
    (∑ id, (state.consumers id).uncountedTrades (state.engine.workers id))
    (state.submitted.map (fun entry => entry.response.outTrades.length)).sum

theorem counted_initial (args : MPMCArgs) : (initial args).Counted where
  produced := by simp [initial, MPMCArgs.counted]
  consumed := ⟨0, rfl, by simp [initial, MPMCConsumerPoint.uncounted]⟩
  trades := ⟨0, rfl, by simp [initial, MPMCConsumerPoint.uncountedTrades]⟩

/-- A producer moves, and counts an order or not. -/
theorem Counted.producer (counted : state.Counted) {id : Fin args.producers}
    {point : MPMCProducerPoint} {amount : Nat}
    (producers : next.producers = Function.update state.producers id point)
    (produced : next.produced = state.produced + UInt64.ofNat amount)
    (raised : args.counted point = args.counted (state.producers id) + amount)
    (consumers : next.consumers = state.consumers) (engine : next.engine = state.engine)
    (submitted : next.submitted = state.submitted) (consumed : next.consumed = state.consumed)
    (trades : next.tradesGenerated = state.tradesGenerated) : next.Counted where
  produced := by
    have sum := Waiting.sum_update args.counted state.producers id point
    rw [produced, counted.produced, ← UInt64.ofNat_add, producers]
    congr 1
    omega
  consumed := by
    rw [consumed, consumers, engine, submitted]
    exact counted.consumed
  trades := by
    rw [trades, consumers, engine, submitted]
    exact counted.trades

/-- A consumer moves, with orders and trades that were made and others that it counts. -/
theorem Counted.consumer (counted : state.Counted) {done : List SubmittedOrder}
    {orders trades : Nat} (consumers : next.consumers = Function.update state.consumers id point)
    (workers : next.engine.workers = Function.update state.engine.workers id worker)
    (submitted : next.submitted = state.submitted ++ done)
    (consumed : next.consumed = state.consumed + UInt64.ofNat orders)
    (ordersDue : orders + point.uncounted worker =
      (state.consumers id).uncounted (state.engine.workers id) + done.length)
    (tradesCounted : next.tradesGenerated = state.tradesGenerated + UInt64.ofNat trades)
    (tradesDue : trades + point.uncountedTrades worker =
      (state.consumers id).uncountedTrades (state.engine.workers id) +
        (done.map (fun entry => entry.response.outTrades.length)).sum)
    (producers : next.producers = state.producers) (produced : next.produced = state.produced) :
    next.Counted where
  produced := by
    rw [produced, producers]
    exact counted.produced
  consumed := by
    have sum := sum_consumers MPMCConsumerPoint.uncounted consumers workers
    refine counted.consumed.count orders consumed ?_
    rw [submitted, List.length_append]
    omega
  trades := by
    have sum := sum_consumers MPMCConsumerPoint.uncountedTrades consumers workers
    refine counted.trades.count trades tradesCounted ?_
    rw [submitted, List.map_append, List.sum_append]
    omega

/-- A consumer goes on with what it has to count. -/
theorem Counted.walk (counted : state.Counted)
    (consumers : next.consumers = Function.update state.consumers id point)
    (workers : next.engine.workers = Function.update state.engine.workers id worker)
    (ordersDue : (state.consumers id).uncounted (state.engine.workers id) = point.uncounted worker)
    (tradesDue : (state.consumers id).uncountedTrades (state.engine.workers id) =
      point.uncountedTrades worker) (submitted : next.submitted = state.submitted)
    (consumed : next.consumed = state.consumed)
    (trades : next.tradesGenerated = state.tradesGenerated)
    (producers : next.producers = state.producers) (produced : next.produced = state.produced) :
    next.Counted :=
  counted.consumer consumers workers (submitted.trans (List.append_nil _).symm)
    (consumed.trans (UInt64.add_zero _).symm) ((Nat.zero_add _).trans ordersDue.symm)
    (trades.trans (UInt64.add_zero _).symm) ((Nat.zero_add _).trans tradesDue.symm) producers
    produced

theorem Counted.producerMoves (counted : state.Counted) (placed : state.Placed)
    (moves : state.ProducerMoves next) : next.Counted := by
  have still (value : UInt64) : value = value + UInt64.ofNat 0 := (UInt64.add_zero value).symm
  cases moves with
  | @generates id i symbol draw generating more =>
      exact counted.producer rfl (still _) (by rw [generating]; rfl) rfl rfl rfl rfl rfl
  | @finishes id i generating done =>
      have here := placed.producers id
      rw [generating] at here
      have all : args.ordersPerProducer = i := Nat.le_antisymm (Nat.not_lt.mp done) here.1
      exact counted.producer rfl (still _) (by rw [generating]; exact all) rfl rfl rfl rfl rfl
  | @announces id i run pushing here notifies =>
      exact counted.producer rfl (still _) (by rw [pushing]; rfl) rfl rfl rfl rfl rfl
  | @counts id i counting =>
      exact counted.producer rfl (show _ = _ + UInt64.ofNat 1 from rfl) (by rw [counting]; rfl) rfl
        rfl rfl rfl rfl
  | _ => exact ⟨counted.produced, counted.consumed, counted.trades⟩

theorem Counted.consumerMoves (counted : state.Counted) (placed : state.Placed)
    (moves : state.ConsumerMoves next) : next.Counted := by
  have still (value : UInt64) : value = value + UInt64.ofNat 0 := (UInt64.add_zero value).symm
  cases moves with
  | @calls id calling =>
      exact counted.walk rfl (state.workers_self id) (by rw [calling]; rfl) (by rw [calling]; rfl)
        rfl rfl rfl rfl rfl
  | @pops id item rest popping locking front =>
      exact counted.walk rfl (state.workers_self id) (by rw [popping]; rfl) (by rw [popping]; rfl)
        rfl rfl rfl rfl rfl
  | @drains id popping locking closed empty =>
      exact counted.walk rfl (state.workers_self id) (by rw [popping]; rfl) (by rw [popping]; rfl)
        rfl rfl rfl rfl rfl
  | @leaves id item run leaving notifies =>
      have works := placed.workers id
      rw [leaving] at works
      exact counted.walk rfl (state.workers_self id) (by rw [leaving, works]; rfl)
        (by rw [leaving, works]; rfl) rfl rfl rfl rfl rfl
  | @submits id item response submitting outside processed =>
      refine counted.consumer (state.consumers_self id) rfl rfl (still _) ?_ (still _) ?_ rfl rfl
      · rw [submitting, outside]
        rfl
      · rw [submitting, outside, List.map_singleton, List.sum_singleton]
        rfl
  | @records id item trade trades tradeCount submitting recording =>
      exact counted.walk (state.consumers_self id) rfl (by rw [submitting, recording]; rfl)
        (by rw [submitting, recording]; rfl) rfl rfl rfl rfl rfl
  | @returns id item tradeCount submitting recorded =>
      exact counted.walk rfl rfl (by rw [submitting, recorded]; rfl)
        (by rw [submitting, recorded]; rfl) rfl rfl rfl rfl rfl
  | @countsTrades id tradeCount counting =>
      refine counted.consumer rfl (state.workers_self id) (List.append_nil _).symm (still _)
        (by rw [counting]; rfl) rfl ?_ rfl rfl
      rw [counting, List.map_nil, List.sum_nil]
      rfl
  | @countsOrder id counting =>
      exact counted.consumer rfl (state.workers_self id) (List.append_nil _).symm
        (show _ = _ + UInt64.ofNat 1 from rfl) (by rw [counting]; rfl) (still _)
        (by rw [counting]; rfl) rfl rfl
  | _ => exact ⟨counted.produced, counted.consumed, counted.trades⟩

theorem Counted.moves (counted : state.Counted) (placed : state.Placed)
    (moves : state.Moves event next) : next.Counted := by
  cases moves with
  | stays _ => exact counted
  | wakes _ _ _ _ => exact ⟨counted.produced, counted.consumed, counted.trades⟩
  | producer moves => exact counted.producerMoves placed moves
  | consumer moves => exact counted.consumerMoves placed moves
  | main moves => cases moves <;> exact ⟨counted.produced, counted.consumed, counted.trades⟩

end MPMCMain

end Lob
