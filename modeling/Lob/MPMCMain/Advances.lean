import Lob.Library.Waiting
import Lob.MPMCMain.Placement

/-!
# Every step of `mpmc_matching_main` leads to its end

A submitted order makes the number of orders that are not submitted yet smaller. Every other
step that changes the state leaves this number alone and shortens the way of the thread that
takes it by more than it lengthens the ways of the threads that it wakes.
-/

namespace Lob

/-- The order that a thread in `push` carries. -/
def MPMCPoint.carried : MPMCPoint SymbolOrder → List SymbolOrder
  | .locking (.push item) => [item]
  | .blockedPush item => [item]
  | _ => []

/-- The order that a consumer has popped and not submitted yet. -/
def MPMCConsumerPoint.held : MPMCConsumerPoint → SubmitPoint → List SymbolOrder
  | .leaving item, _ => [item]
  | .submitting item, .outside => [item]
  | _, _ => []

/-- How many ids a producer has taken. -/
def MPMCArgs.issued (args : MPMCArgs) : MPMCProducerPoint → Nat
  | .generating i => i
  | .pushing i => i + 1
  | .counting i => i + 1
  | .returned => args.ordersPerProducer

/-! ### How far the threads have to go -/

/-- The steps of a thread in the queue. A call of `close` pays for the threads that it wakes. -/
def MPMCPoint.rank (threads : Nat) : MPMCPoint SymbolOrder → Nat
  | .locking .close => threads + 2
  | .locking _ => 1
  | .notifyAllNotEmpty => threads + 1
  | _ => 0

namespace MPMCArgs

variable (args : MPMCArgs)

def producerRank : MPMCProducerPoint → Nat
  | .generating i => (args.ordersPerProducer - i) * (args.threads + 5) + 1
  | .pushing i => (args.ordersPerProducer - i - 1) * (args.threads + 5) + args.threads + 4
  | .counting i => (args.ordersPerProducer - i - 1) * (args.threads + 5) + 2
  | .returned => 0

/-- The steps of a consumer until it submits its next order. -/
def consumerRank : MPMCConsumerPoint → SubmitPoint → Nat
  | .submitting _, .recording _ trades _ => args.threads + 9 + trades.length
  | .submitting _, _ => 1
  | .countingTrades _, _ => args.threads + 8
  | .countingOrder, _ => args.threads + 7
  | .calling, _ => args.threads + 6
  | .popping, _ => args.threads + 4
  | .leaving _, _ => args.threads + 3
  | .exited, _ => 0

def mainRank : MPMCMainPoint → Nat
  | .joiningProducers index =>
      args.producers - index + args.consumers + 2 * args.threads + 5
  | .closing => args.consumers + args.threads + 2
  | .joiningConsumers index => args.consumers - index + 1
  | .returned _ => 0

end MPMCArgs

namespace MPMCMain

variable {args : MPMCArgs} {state next : MPMCMain args}
variable {before after : MPMCPoint SymbolOrder} {gain : Nat} {id : Fin args.consumers}
  {worker : SubmitPoint}

/-- The orders that no engine has processed yet. -/
def unsubmitted (state : MPMCMain args) : Nat :=
  (∑ id, (args.ordersPerProducer - args.issued (state.producers id))) +
    (∑ thread, (state.queue.points thread).carried.length) + state.queue.queue.buffer.length +
    ∑ id, ((state.consumers id).held (state.engine.workers id)).length

def rank (state : MPMCMain args) : Nat :=
  (∑ id, args.producerRank (state.producers id)) +
    (∑ id, args.consumerRank (state.consumers id) (state.engine.workers id)) +
    (∑ thread, (state.queue.points thread).rank args.threads) + args.mainRank state.main

/-- The program has come closer to its end. -/
def Advances (state next : MPMCMain args) : Prop :=
  Prod.Lex (· < ·) (· < ·) (next.unsubmitted, next.rank) (state.unsubmitted, state.rank)

theorem advances_iff : state.Advances next ↔ next.unsubmitted < state.unsubmitted ∨
    next.unsubmitted = state.unsubmitted ∧ next.rank < state.rank := Prod.lex_def

/-! ### What one thread changes -/

/-- A thread that moves from its point to another one, with a gain for those it wakes. -/
structure Shifts (state next : MPMCMain args) (before after : MPMCPoint SymbolOrder)
    (gain : Nat) : Prop where
  carried : ∀ weight : List SymbolOrder → Nat,
    (∑ thread, weight (next.queue.points thread).carried) + weight before.carried =
      (∑ thread, weight (state.queue.points thread).carried) + weight after.carried
  rank : (∑ thread, (next.queue.points thread).rank args.threads) + before.rank args.threads ≤
    (∑ thread, (state.queue.points thread).rank args.threads) + after.rank args.threads + gain

/-- A thread moves alone. -/
theorem shifts_update {thread : Fin args.threads} (here : state.queue.points thread = before)
    (points : next.queue.points = Function.update state.queue.points thread after) :
    Shifts state next before after 0 where
  carried weight := by
    rw [points, ← here]
    exact Waiting.sum_update (fun point => weight point.carried) state.queue.points thread after
  rank := by
    rw [points, ← here]
    exact Nat.le_of_eq
      (Waiting.sum_update (MPMCPoint.rank args.threads) state.queue.points thread after)

/-- No thread moves in the queue. -/
theorem shifts_refl (points : next.queue.points = state.queue.points)
    (point : MPMCPoint SymbolOrder) : Shifts state next point point 0 where
  carried _ := by rw [points]
  rank := by rw [points, Nat.add_zero]

theorem carried_woken (woken : before.Woken after) :
    after.carried = before.carried := by
  cases woken <;> rfl

theorem rank_woken (woken : before.Woken after) :
    after.rank args.threads ≤ before.rank args.threads + 1 := by
  cases woken with
  | same => exact Nat.le_succ _
  | pop => exact Nat.le_refl _
  | push item => exact Nat.le_refl _

/-- Threads are woken. -/
theorem shifts_woken (woken : ∀ other, (state.queue.points other).Woken (next.queue.points other))
    (point : MPMCPoint SymbolOrder) : Shifts state next point point args.threads where
  carried weight := by
    congr 1
    exact Finset.sum_congr rfl (fun other _ => congrArg weight (carried_woken (woken other)))
  rank := by
    have most : ∑ other, (next.queue.points other).rank args.threads ≤
        ∑ other, ((state.queue.points other).rank args.threads + 1) :=
      Finset.sum_le_sum (fun other _ => rank_woken (woken other))
    rw [Finset.sum_add_distrib, Finset.sum_const, Finset.card_univ, Fintype.card_fin, smul_eq_mul,
      Nat.mul_one] at most
    omega

/-- A thread moves and wakes others. -/
theorem shifts_notifies {thread : Fin args.threads} (here : state.queue.points thread = before)
    (notifies : state.queue.Notifies thread after next.queue) :
    Shifts state next before after args.threads := by
  -- first the thread moves alone, then the others are woken
  let middle : MPMCMain args := { state with queue := state.queue.setPoint thread after }
  have moved : Shifts state middle before after 0 := shifts_update here rfl
  have woken (other : Fin args.threads) :
      (middle.queue.points other).Woken (next.queue.points other) := by
    by_cases own : other = thread
    · subst own
      simp only [middle, MPMCRun.setPoint, Function.update_self, notifies.own]
      exact .same _
    · simp only [middle, MPMCRun.setPoint, Function.update_of_ne own]
      exact notifies.others other own
  have wakes := shifts_woken woken after
  refine ⟨fun weight => ?_, ?_⟩
  · have first := moved.carried weight
    have second := wakes.carried weight
    omega
  · have first := moved.rank
    have second := wakes.rank
    omega

/-- A producer moves. -/
theorem advances_producer {id : Fin args.producers} {point : MPMCProducerPoint}
    (producers : next.producers = Function.update state.producers id point)
    (consumers : next.consumers = state.consumers) (engine : next.engine = state.engine)
    (main : next.main = state.main) (shifts : Shifts state next before after gain)
    (same : args.ordersPerProducer - args.issued point + after.carried.length +
        next.queue.queue.buffer.length =
      args.ordersPerProducer - args.issued (state.producers id) + before.carried.length +
        state.queue.queue.buffer.length)
    (closer : args.producerRank point + after.rank args.threads + gain <
      args.producerRank (state.producers id) + before.rank args.threads) : state.Advances next := by
  have issued := Waiting.sum_update (fun point => args.ordersPerProducer - args.issued point)
    state.producers id point
  have rank := Waiting.sum_update args.producerRank state.producers id point
  obtain ⟨carried, points⟩ := shifts
  replace carried := carried List.length
  refine advances_iff.mpr (.inr ⟨?_, ?_⟩)
  · rw [unsubmitted, unsubmitted, producers, consumers, engine]
    omega
  · rw [MPMCMain.rank, MPMCMain.rank, producers, consumers, engine, main]
    omega

/-- A sum over the consumers, after a step of one of them. -/
theorem sum_consumers (weight : MPMCConsumerPoint → SubmitPoint → Nat) {point : MPMCConsumerPoint}
    (consumers : next.consumers = Function.update state.consumers id point)
    (workers : next.engine.workers = Function.update state.engine.workers id worker) :
    (∑ other, weight (next.consumers other) (next.engine.workers other)) +
        weight (state.consumers id) (state.engine.workers id) =
      (∑ other, weight (state.consumers other) (state.engine.workers other)) +
        weight point worker := by
  rw [consumers, workers]
  exact Waiting.sum_update_pair weight state.consumers state.engine.workers id point worker

/-- A consumer moves. -/
theorem advances_consumer {point : MPMCConsumerPoint}
    (consumers : next.consumers = Function.update state.consumers id point)
    (workers : next.engine.workers = Function.update state.engine.workers id worker)
    (producers : next.producers = state.producers) (main : next.main = state.main)
    (shifts : Shifts state next before after gain) (quiet : after.carried = before.carried)
    (same : (point.held worker).length + next.queue.queue.buffer.length =
      ((state.consumers id).held (state.engine.workers id)).length +
        state.queue.queue.buffer.length)
    (closer : args.consumerRank point worker + after.rank args.threads + gain <
      args.consumerRank (state.consumers id) (state.engine.workers id) +
        before.rank args.threads) : state.Advances next := by
  have held := sum_consumers (fun point worker => (point.held worker).length) consumers workers
  have rank := sum_consumers args.consumerRank consumers workers
  obtain ⟨carried, points⟩ := shifts
  replace carried := carried List.length
  rw [quiet] at carried
  refine advances_iff.mpr (.inr ⟨?_, ?_⟩)
  · rw [unsubmitted, unsubmitted, producers]
    omega
  · rw [MPMCMain.rank, MPMCMain.rank, producers, main]
    omega

/-- A consumer has its order processed. -/
theorem advances_submit (queue : next.queue = state.queue)
    (producers : next.producers = state.producers) (consumers : next.consumers = state.consumers)
    (workers : next.engine.workers = Function.update state.engine.workers id worker)
    (fewer : ((state.consumers id).held worker).length <
      ((state.consumers id).held (state.engine.workers id)).length) : state.Advances next := by
  have same : next.consumers = Function.update state.consumers id (state.consumers id) := by
    rw [consumers, Function.update_eq_self]
  have held := sum_consumers (fun point worker => (point.held worker).length) same workers
  refine advances_iff.mpr (.inl ?_)
  rw [unsubmitted, unsubmitted, queue, producers]
  omega

/-- The main thread moves. -/
theorem advances_mainThread (producers : next.producers = state.producers)
    (consumers : next.consumers = state.consumers) (engine : next.engine = state.engine)
    (shifts : Shifts state next before after gain) (quiet : after.carried = before.carried)
    (buffer : next.queue.queue.buffer = state.queue.queue.buffer)
    (closer : args.mainRank next.main + after.rank args.threads + gain <
      args.mainRank state.main + before.rank args.threads) : state.Advances next := by
  obtain ⟨carried, points⟩ := shifts
  replace carried := carried List.length
  rw [quiet] at carried
  refine advances_iff.mpr (.inr ⟨?_, ?_⟩)
  · rw [unsubmitted, unsubmitted, producers, consumers, engine, buffer]
    omega
  · rw [MPMCMain.rank, MPMCMain.rank, producers, consumers, engine]
    omega

theorem producerRank_pushing (args : MPMCArgs) {i : Nat} (more : i < args.ordersPerProducer) :
    args.producerRank (.pushing i) + 2 = args.producerRank (.generating i) := by
  obtain ⟨rest, left⟩ : ∃ rest, args.ordersPerProducer - i = rest + 1 :=
    Nat.exists_eq_succ_of_ne_zero (Nat.sub_ne_zero_of_lt more)
  simp only [MPMCArgs.producerRank, left, Nat.add_sub_cancel, Nat.succ_mul]
  omega

theorem producerRank_counting (args : MPMCArgs) (i : Nat) :
    args.producerRank (.counting i) + args.threads + 2 = args.producerRank (.pushing i) := by
  simp only [MPMCArgs.producerRank]
  omega

theorem producerRank_generating (args : MPMCArgs) (i : Nat) :
    args.producerRank (.generating (i + 1)) + 1 = args.producerRank (.counting i) := by
  simp only [MPMCArgs.producerRank, Nat.sub_sub]

theorem ProducerMoves.advances (moves : state.ProducerMoves next) (placed : state.Placed) :
    state.Advances next := by
  cases moves with
  | @generates id i symbol draw generating more =>
      have here := placed.producers id
      rw [generating] at here
      have rank := producerRank_pushing args more
      refine advances_producer rfl rfl rfl rfl (shifts_update here.2 rfl) ?_ ?_
      · rw [generating]
        simp only [MPMCArgs.issued, MPMCPoint.carried, List.length_singleton, List.length_nil]
        change _ + state.queue.queue.buffer.length = _
        omega
      · rw [generating]
        simp only [MPMCPoint.rank]
        omega
  | @finishes id i generating done =>
      have here := placed.producers id
      rw [generating] at here
      refine advances_producer rfl rfl rfl rfl (shifts_refl (by rfl) .outside) ?_ ?_
      · rw [generating]
        simp only [MPMCArgs.issued]
        have all : i = args.ordersPerProducer := Nat.le_antisymm here.1 (Nat.not_lt.mp done)
        rw [all]
        rfl
      · rw [generating]
        exact Nat.succ_pos _
  | @blocksPush id i item pushing locking =>
      exact advances_producer (state.producers_self id) rfl rfl rfl (shifts_update locking rfl) rfl
        (Nat.lt_succ_self _)
  | @pushes id i item queue pushing locking inserts =>
      obtain ⟨_, _, rfl⟩ := inserts
      refine advances_producer (state.producers_self id) rfl rfl rfl (shifts_update locking rfl) ?_
        (Nat.lt_succ_self _)
      simp only [MPMCPoint.carried, MPMCQueue.pushBack, List.length_append, List.length_singleton,
        List.length_nil]
      omega
  | @announces id i run pushing here notifies =>
      have rank := producerRank_counting args i
      refine advances_producer rfl rfl rfl rfl (shifts_notifies here notifies) ?_ ?_
      · rw [pushing]
        simp only [setProducer, notifies.queue]
        rfl
      · rw [pushing]
        simp only [MPMCPoint.rank]
        omega
  | @counts id i counting =>
      have rank := producerRank_generating args i
      refine advances_producer rfl rfl rfl rfl (shifts_refl (by rfl) .outside) ?_ ?_
      · rw [counting]
        rfl
      · rw [counting]
        simp only [MPMCPoint.rank]
        omega

theorem ConsumerMoves.advances (moves : state.ConsumerMoves next) (placed : state.Placed) :
    state.Advances next := by
  cases moves with
  | @calls id calling =>
      have here := placed.consumers id
      rw [calling] at here
      refine advances_consumer rfl (state.workers_self id) rfl rfl (shifts_update here rfl) rfl
        ?_ ?_
      · rw [calling]
        rfl
      · rw [calling]
        exact Nat.lt_succ_self _
  | @blocksPop id popping locking =>
      exact advances_consumer (state.consumers_self id) (state.workers_self id) rfl rfl
        (shifts_update locking rfl) rfl rfl (Nat.lt_succ_self _)
  | @pops id item rest popping locking front =>
      refine advances_consumer rfl (state.workers_self id) rfl rfl (shifts_update locking rfl)
        rfl ?_ ?_
      · rw [popping, front]
        simp only [MPMCConsumerPoint.held, setConsumer, List.length_cons, List.length_nil]
        omega
      · rw [popping]
        simp only [MPMCArgs.consumerRank, MPMCPoint.rank]
        omega
  | @drains id popping locking closed empty =>
      refine advances_consumer rfl (state.workers_self id) rfl rfl (shifts_update locking rfl)
        rfl ?_ ?_
      · rw [popping]
        rfl
      · rw [popping]
        exact Nat.succ_pos _
  | @leaves id item run leaving notifies =>
      have here := placed.consumers id
      have works := placed.workers id
      rw [leaving] at here works
      refine advances_consumer rfl (state.workers_self id) rfl rfl
        (shifts_notifies here.2 notifies) rfl ?_ ?_
      · rw [leaving, works]
        simp only [setConsumer, notifies.queue]
        rfl
      · rw [leaving, works]
        simp only [MPMCArgs.consumerRank, MPMCPoint.rank]
        omega
  | @submits id item response submitting outside processed =>
      refine advances_submit rfl rfl rfl rfl ?_
      rw [submitting, outside]
      exact Nat.zero_lt_one
  | @records id item trade trades tradeCount submitting recording =>
      refine advances_consumer (state.consumers_self id) rfl rfl rfl
        (shifts_refl (by rfl) .outside) rfl ?_ ?_
      · rw [submitting, recording]
        rfl
      · rw [submitting, recording]
        exact Nat.lt_succ_self _
  | @returns id item tradeCount submitting recorded =>
      refine advances_consumer rfl rfl rfl rfl (shifts_refl (by rfl) .outside) rfl ?_ ?_
      · rw [submitting, recorded]
        rfl
      · rw [submitting, recorded]
        exact Nat.lt_succ_self _
  | @countsTrades id tradeCount counting =>
      refine advances_consumer rfl (state.workers_self id) rfl rfl
        (shifts_refl (by rfl) .outside) rfl ?_ ?_
      · rw [counting]
        rfl
      · rw [counting]
        exact Nat.lt_succ_self _
  | @countsOrder id counting =>
      refine advances_consumer rfl (state.workers_self id) rfl rfl
        (shifts_refl (by rfl) .outside) rfl ?_ ?_
      · rw [counting]
        rfl
      · rw [counting]
        exact Nat.lt_succ_self _

theorem MainMoves.advances (moves : state.MainMoves next) (placed : state.Placed) :
    state.Advances next := by
  cases moves with
  | @joinsProducer index joining inside returned =>
      refine advances_mainThread rfl rfl rfl (shifts_refl (by rfl) .outside) rfl rfl ?_
      rw [joining]
      simp only [MPMCArgs.mainRank]
      omega
  | @closes index joining done =>
      have here := placed.main
      rw [joining] at here
      refine advances_mainThread rfl rfl rfl (shifts_update here rfl) rfl rfl ?_
      rw [joining]
      simp only [MPMCArgs.mainRank, MPMCPoint.rank]
      omega
  | shuts closing locking =>
      exact advances_mainThread rfl rfl rfl (shifts_update locking rfl) rfl rfl
        (Nat.lt_succ_self _)
  | tells closing here notifies =>
      refine advances_mainThread rfl rfl rfl (shifts_notifies here notifies) rfl
        (congrArg MPMCQueue.buffer notifies.queue) ?_
      simp only [MPMCPoint.rank]
      omega
  | closed closing here notifies =>
      refine advances_mainThread rfl rfl rfl (shifts_notifies here notifies) rfl
        (congrArg MPMCQueue.buffer notifies.queue) ?_
      rw [closing]
      simp only [MPMCArgs.mainRank, MPMCPoint.rank]
      omega
  | @joinsConsumer index joining inside exited =>
      refine advances_mainThread rfl rfl rfl (shifts_refl (by rfl) .outside) rfl rfl ?_
      rw [joining]
      simp only [MPMCArgs.mainRank]
      omega
  | @prints index joining done =>
      refine advances_mainThread rfl rfl rfl (shifts_refl (by rfl) .outside) rfl rfl ?_
      rw [joining]
      exact Nat.succ_pos _

/-- Every step that is not a spurious wakeup and changes the state brings the program closer to
its end. -/
theorem Moves.advances {event : MPMCMainEvent args} (moves : state.Moves event next)
    (placed : state.Placed) (moved : ¬(state.Waits event ∧ next = state))
    (notified : ∀ thread, event ≠ .spurious thread) : state.Advances next := by
  cases moves with
  | stays waits => exact absurd ⟨waits, rfl⟩ moved
  | wakes spurious _ _ _ => exact absurd spurious (notified _)
  | producer moves => exact moves.advances placed
  | consumer moves => exact moves.advances placed
  | main moves => exact moves.advances placed

end MPMCMain

end Lob
