import Lob.MPMCMain.Moves

/-!
# Every move keeps the threads in their places

The threads of `mpmc_matching_main` see of each other only wakeups and the state of the queue.
So a move of one thread leaves all others where they are, and has to be right about its own
thread alone.
-/

namespace Lob

namespace MPMCMain

variable {args : MPMCArgs} {state next : MPMCMain args} {before after : MPMCPoint SymbolOrder}

/-- A wakeup leaves a producer in `push`. -/
theorem producerAt_woken {point : MPMCProducerPoint} (here : args.ProducerAt point before)
    (woken : before.Woken after) :
    args.ProducerAt point after := by
  cases woken with
  | same => exact here
  | pop => cases point <;> simp [MPMCArgs.ProducerAt] at here
  | push item =>
      cases point with
      | pushing i =>
          obtain ⟨more, ⟨other, generated, same | same⟩ | same⟩ := here
          · contradiction
          · obtain rfl := MPMCPoint.blockedPush.inj same
            exact ⟨more, .inl ⟨item, generated, .inl rfl⟩⟩
          · contradiction
      | _ => simp [MPMCArgs.ProducerAt] at here

/-- A wakeup leaves a consumer in `pop`. -/
theorem consumerAt_woken {point : MPMCConsumerPoint} (here : point.At before)
    (woken : before.Woken after) : point.At after := by
  cases woken with
  | same => exact here
  | pop =>
      cases point with
      | popping => exact .inl rfl
      | _ => simp [MPMCConsumerPoint.At] at here
  | push item => cases point <;> simp [MPMCConsumerPoint.At] at here

/-- The main thread is never blocked in the queue. -/
theorem mainAt_woken {point : MPMCMainPoint} (here : point.At before) (woken : before.Woken after) :
    after = before := by
  cases woken with
  | same => rfl
  | pop => cases point <;> simp [MPMCMainPoint.At] at here
  | push item => cases point <;> simp [MPMCMainPoint.At] at here

/-- A producer moves. -/
theorem Placed.producer (placed : state.Placed) {id : Fin args.producers}
    {point : MPMCProducerPoint} (running : state.producers id ≠ .returned)
    (producers : next.producers = Function.update state.producers id point)
    (consumers : next.consumers = state.consumers) (engine : next.engine = state.engine)
    (main : next.main = state.main)
    (own : args.ProducerAt point (next.queue.points (args.producerThread id)))
    (others : ∀ other, other ≠ args.producerThread id →
      (state.queue.points other).Woken (next.queue.points other))
    (closed : next.queue.queue.closed = state.queue.queue.closed)
    (buffered : ∀ item ∈ next.queue.queue.buffer, item.Generated) : next.Placed := by
  have opened := placed.opened running
  have mainPoint : next.queue.points args.mainThread = state.queue.points args.mainThread :=
    mainAt_woken placed.main (others _ (args.producerThread_ne_mainThread id).symm)
  refine ⟨fun other => ?_, fun other => ?_, ?_, ?_, fun other joined => ?_, ?_, ?_,
    fun other exited => ?_, buffered⟩
  · rw [producers]
    by_cases here : other = id
    · subst here
      rwa [Function.update_self]
    · rw [Function.update_of_ne here]
      exact producerAt_woken (placed.producers other)
        (others _ (fun same => here (args.producerThread_injective same)))
  · rw [consumers]
    exact consumerAt_woken (placed.consumers other)
      (others _ (args.consumerThread_ne_producerThread other id))
  · rw [consumers, engine]
    exact placed.workers
  · rw [main, mainPoint]
    exact placed.main
  · rw [main] at joined
    have returned := placed.joinedProducers other joined
    have different : other ≠ id := by
      rintro rfl
      exact running returned
    rw [producers, Function.update_of_ne different]
    exact returned
  · rw [main, consumers]
    exact placed.joinedConsumers
  · rw [closed, main, mainPoint]
    exact placed.closed
  · rw [consumers] at exited
    exact absurd (opened.symm.trans (placed.drained other exited).1) Bool.false_ne_true

/-- A consumer moves. -/
theorem Placed.consumer (placed : state.Placed) {id : Fin args.consumers}
    {point : MPMCConsumerPoint} (running : state.consumers id ≠ .exited)
    (consumers : next.consumers = Function.update state.consumers id point)
    (producers : next.producers = state.producers) (main : next.main = state.main)
    (own : point.At (next.queue.points (args.consumerThread id)))
    (others : ∀ other, other ≠ args.consumerThread id →
      (state.queue.points other).Woken (next.queue.points other))
    (works : point.Works (next.engine.workers id))
    (workers : ∀ other, other ≠ id → next.engine.workers other = state.engine.workers other)
    (closed : next.queue.queue.closed = state.queue.queue.closed)
    (buffer : next.queue.queue.buffer <:+ state.queue.queue.buffer)
    (drained : point = .exited → state.queue.queue.closed = true ∧ state.queue.queue.buffer = []) :
    next.Placed := by
  have mainPoint : next.queue.points args.mainThread = state.queue.points args.mainThread :=
    mainAt_woken placed.main (others _ (args.consumerThread_ne_mainThread id).symm)
  refine ⟨fun other => ?_, fun other => ?_, fun other => ?_, ?_, ?_, fun other joined => ?_, ?_,
    fun other exited => ?_, fun item member => placed.buffered item (buffer.subset member)⟩
  · rw [producers]
    exact producerAt_woken (placed.producers other)
      (others _ (args.consumerThread_ne_producerThread id other).symm)
  · rw [consumers]
    by_cases here : other = id
    · subst here
      rwa [Function.update_self]
    · rw [Function.update_of_ne here]
      exact consumerAt_woken (placed.consumers other)
        (others _ (fun same => here (args.consumerThread_injective same)))
  · rw [consumers]
    by_cases here : other = id
    · subst here
      rwa [Function.update_self]
    · rw [Function.update_of_ne here, workers other here]
      exact placed.workers other
  · rw [main, mainPoint]
    exact placed.main
  · rw [main, producers]
    exact placed.joinedProducers
  · rw [main] at joined
    have exited := placed.joinedConsumers other joined
    have different : other ≠ id := by
      rintro rfl
      exact running exited
    rw [consumers, Function.update_of_ne different]
    exact exited
  · rw [closed, main, mainPoint]
    exact placed.closed
  · have empty : state.queue.queue.closed = true ∧ state.queue.queue.buffer = [] := by
      rw [consumers] at exited
      by_cases here : other = id
      · subst here
        rw [Function.update_self] at exited
        exact drained exited
      · rw [Function.update_of_ne here] at exited
        exact placed.drained other exited
    refine ⟨closed.trans empty.1, ?_⟩
    rw [empty.2] at buffer
    exact List.suffix_nil.mp buffer

/-- The main thread moves. -/
theorem Placed.mainThread (placed : state.Placed) (producers : next.producers = state.producers)
    (consumers : next.consumers = state.consumers) (engine : next.engine = state.engine)
    (own : next.main.At (next.queue.points args.mainThread))
    (others : ∀ other, other ≠ args.mainThread →
      (state.queue.points other).Woken (next.queue.points other))
    (joinedProducers : ∀ id : Fin args.producers,
      id.val < next.main.joinedProducers args.producers → state.producers id = .returned)
    (joinedConsumers : ∀ id : Fin args.consumers,
      id.val < next.main.joinedConsumers args.consumers → state.consumers id = .exited)
    (closed : next.queue.queue.closed = true ↔
      next.main.HasClosed (next.queue.points args.mainThread))
    (stays : state.queue.queue.closed = true → next.queue.queue.closed = true)
    (buffer : next.queue.queue.buffer = state.queue.queue.buffer) : next.Placed := by
  refine ⟨fun id => ?_, fun id => ?_, ?_, own, ?_, ?_, closed, fun id exited => ?_, ?_⟩
  · rw [producers]
    exact producerAt_woken (placed.producers id) (others _ (args.producerThread_ne_mainThread id))
  · rw [consumers]
    exact consumerAt_woken (placed.consumers id) (others _ (args.consumerThread_ne_mainThread id))
  · rw [consumers, engine]
    exact placed.workers
  · rw [producers]
    exact joinedProducers
  · rw [consumers]
    exact joinedConsumers
  · rw [consumers] at exited
    obtain ⟨shut, empty⟩ := placed.drained id exited
    exact ⟨stays shut, buffer.trans empty⟩
  · rw [buffer]
    exact placed.buffered

/-- The other threads do not see one thread move. -/
theorem woken_update {points : Fin args.threads → MPMCPoint SymbolOrder} {thread : Fin args.threads}
    (point : MPMCPoint SymbolOrder) (other : Fin args.threads) (different : other ≠ thread) :
    (points other).Woken (Function.update points thread point other) := by
  rw [Function.update_of_ne different]
  exact .same _

/-- A spurious wakeup. -/
theorem Placed.wake (placed : state.Placed) {run : MPMCRun SymbolOrder args.threads}
    (queue : run.queue = state.queue.queue)
    (woken : ∀ other, (state.queue.points other).Woken (run.points other)) :
    { state with queue := run }.Placed := by
  have mainPoint := mainAt_woken placed.main (woken args.mainThread)
  refine ⟨fun id => producerAt_woken (placed.producers id) (woken _),
    fun id => consumerAt_woken (placed.consumers id) (woken _), placed.workers, ?_,
    placed.joinedProducers, placed.joinedConsumers, ?_, ?_, ?_⟩
  · simp only [mainPoint]
    exact placed.main
  · simp only [queue, mainPoint]
    exact placed.closed
  · simp only [queue]
    exact placed.drained
  · simp only [queue]
    exact placed.buffered

/-- The order that a producer is about to push. -/
theorem Placed.pushed (placed : state.Placed) {id : Fin args.producers} {i : Nat}
    {item : SymbolOrder} (pushing : state.producers id = .pushing i)
    (locking : state.queue.points (args.producerThread id) = .locking (.push item)) :
    i < args.ordersPerProducer ∧ item.Generated := by
  have here := placed.producers id
  rw [pushing, locking] at here
  obtain ⟨more, ⟨other, generated, same | same⟩ | same⟩ := here
  · obtain rfl := MPMCCall.push.inj (MPMCPoint.locking.inj same)
    exact ⟨more, generated⟩
  · contradiction
  · contradiction

section Unmoved

variable (state)

/-- A step outside of the queue. -/
theorem woken_self (thread other : Fin args.threads) (_ : other ≠ thread) :
    (state.queue.points other).Woken (state.queue.points other) := .same _

theorem producers_self (id : Fin args.producers) :
    state.producers = Function.update state.producers id (state.producers id) :=
  (Function.update_eq_self id state.producers).symm

theorem consumers_self (id : Fin args.consumers) :
    state.consumers = Function.update state.consumers id (state.consumers id) :=
  (Function.update_eq_self id state.consumers).symm

theorem workers_self (id : Fin args.consumers) :
    state.engine.workers = Function.update state.engine.workers id (state.engine.workers id) :=
  (Function.update_eq_self id state.engine.workers).symm

end Unmoved

theorem Placed.producerMoves (placed : state.Placed) (moves : state.ProducerMoves next) :
    next.Placed := by
  cases moves with
  | @generates id i symbol draw generating more =>
      refine placed.producer (by simp [generating]) rfl rfl rfl rfl ?_
        (woken_update _) rfl placed.buffered
      exact ⟨more, .inl ⟨_, ⟨symbol, _, draw, rfl⟩, .inl (Function.update_self _ _ _)⟩⟩
  | @finishes id i generating done =>
      have here := placed.producers id
      rw [generating] at here
      exact placed.producer (by simp [generating]) rfl rfl rfl rfl here.2
        (state.woken_self _) rfl placed.buffered
  | @blocksPush id i item pushing locking =>
      obtain ⟨more, generated⟩ := placed.pushed pushing locking
      refine placed.producer (by simp [pushing]) (state.producers_self id) rfl rfl rfl ?_
        (woken_update _) rfl placed.buffered
      rw [pushing]
      exact ⟨more, .inl ⟨item, generated, .inr (Function.update_self _ _ _)⟩⟩
  | @pushes id i item queue pushing locking inserts =>
      obtain ⟨more, generated⟩ := placed.pushed pushing locking
      obtain ⟨_, _, rfl⟩ := inserts
      refine placed.producer (by simp [pushing]) (state.producers_self id) rfl rfl rfl ?_
        (woken_update _) rfl (fun other member => ?_)
      · rw [pushing]
        exact ⟨more, .inr (Function.update_self _ _ _)⟩
      · rcases List.mem_append.mp member with old | new
        · exact placed.buffered other old
        · rw [List.mem_singleton.mp new]
          exact generated
  | @announces id i run pushing here notifies =>
      have more := placed.producers id
      rw [pushing] at more
      refine placed.producer (by simp [pushing]) rfl rfl rfl rfl ⟨more.1, notifies.own⟩
        notifies.others (congrArg MPMCQueue.closed notifies.queue) ?_
      simp only [setProducer, notifies.queue]
      exact placed.buffered
  | @counts id i counting =>
      have here := placed.producers id
      rw [counting] at here
      exact placed.producer (by simp [counting]) rfl rfl rfl rfl here
        (state.woken_self _) rfl placed.buffered

theorem Placed.consumerMoves (placed : state.Placed) (moves : state.ConsumerMoves next) :
    next.Placed := by
  have sameWorkers (point : SubmitPoint) (id other : Fin args.consumers) (different : other ≠ id) :
      Function.update state.engine.workers id point other = state.engine.workers other :=
    Function.update_of_ne different _ _
  cases moves with
  | @calls id calling =>
      have works := placed.workers id
      rw [calling] at works
      exact placed.consumer (by simp [calling]) rfl rfl rfl
        (.inl (Function.update_self _ _ _)) (woken_update _) works (fun _ _ => rfl) rfl
        List.suffix_rfl (by simp)
  | @blocksPop id popping locking =>
      have works := placed.workers id
      refine placed.consumer (by simp [popping]) (state.consumers_self id) rfl rfl ?_
        (woken_update _) works (fun _ _ => rfl) rfl List.suffix_rfl (by simp [popping])
      rw [popping]
      exact .inr (Function.update_self _ _ _)
  | @pops id item rest popping locking front =>
      have works := placed.workers id
      rw [popping] at works
      refine placed.consumer (by simp [popping]) rfl rfl rfl
        ⟨placed.buffered item ?_, Function.update_self _ _ _⟩ (woken_update _) works
        (fun _ _ => rfl) rfl ?_ (by simp)
      · rw [front]
        exact List.mem_cons_self
      · rw [front]
        exact List.suffix_cons item rest
  | @drains id popping locking closed empty =>
      have works := placed.workers id
      rw [popping] at works
      exact placed.consumer (by simp [popping]) rfl rfl rfl (Function.update_self _ _ _)
        (woken_update _) works (fun _ _ => rfl) rfl List.suffix_rfl (fun _ => ⟨closed, empty⟩)
  | @leaves id item run leaving notifies =>
      have here := placed.consumers id
      have works := placed.workers id
      rw [leaving] at here works
      refine placed.consumer (by simp [leaving]) rfl rfl rfl ⟨here.1, notifies.own⟩
        notifies.others (.inl works) (fun _ _ => rfl) (congrArg MPMCQueue.closed notifies.queue) ?_
        (by simp)
      simp only [setConsumer, notifies.queue]
      exact List.suffix_rfl
  | @submits id item response submitting outside processed =>
      have here := placed.consumers id
      refine placed.consumer (by simp [submitting]) (state.consumers_self id) rfl rfl here
        (state.woken_self _) ?_ (sameWorkers _ id) rfl List.suffix_rfl (by simp [submitting])
      rw [submitting]
      exact .inr ⟨_, _, Function.update_self _ _ _⟩
  | @records id item trade trades tradeCount submitting recording =>
      have here := placed.consumers id
      refine placed.consumer (by simp [submitting]) (state.consumers_self id) rfl rfl here
        (state.woken_self _) ?_ (sameWorkers _ id) rfl List.suffix_rfl (by simp [submitting])
      rw [submitting]
      exact .inr ⟨_, _, Function.update_self _ _ _⟩
  | @returns id item tradeCount submitting recorded =>
      have here := placed.consumers id
      rw [submitting] at here
      exact placed.consumer (by simp [submitting]) rfl rfl rfl here.2 (state.woken_self _)
        (Function.update_self _ _ _) (sameWorkers _ id) rfl List.suffix_rfl (by simp)
  | @countsTrades id tradeCount counting =>
      have here := placed.consumers id
      have works := placed.workers id
      rw [counting] at here works
      exact placed.consumer (by simp [counting]) rfl rfl rfl here (state.woken_self _) works
        (fun _ _ => rfl) rfl List.suffix_rfl (by simp)
  | @countsOrder id counting =>
      have here := placed.consumers id
      have works := placed.workers id
      rw [counting] at here works
      exact placed.consumer (by simp [counting]) rfl rfl rfl here (state.woken_self _) works
        (fun _ _ => rfl) rfl List.suffix_rfl (by simp)

theorem Placed.mainMoves (placed : state.Placed) (moves : state.MainMoves next) :
    next.Placed := by
  cases moves with
  | @joinsProducer index joining inside returned =>
      have here := placed.main
      have joined := placed.joinedProducers
      have closed := placed.closed
      rw [joining] at here joined closed
      refine placed.mainThread rfl rfl rfl here (state.woken_self _) (fun id before => ?_)
        (fun _ before => absurd before (Nat.not_lt_zero _)) closed (fun shut => shut) rfl
      rcases Nat.lt_succ_iff_lt_or_eq.mp before with earlier | same
      · exact joined id earlier
      · rw [← returned]
        exact congrArg state.producers (Fin.ext same)
  | @closes index joining done =>
      have joined := placed.joinedProducers
      have closed := placed.closed
      rw [joining] at joined closed
      refine placed.mainThread rfl rfl rfl (.inl (Function.update_self _ _ _)) (woken_update _)
        (fun id _ => joined id (lt_of_lt_of_le id.isLt (Nat.le_of_not_lt done)))
        (fun _ before => absurd before (Nat.not_lt_zero _))
        ⟨fun shut => (closed.mp shut).elim, fun reached => ?_⟩ (fun shut => shut) rfl
      exact absurd (Function.update_self _ _ _) reached
  | shuts closing locking =>
      have joined := placed.joinedProducers
      rw [closing] at joined
      refine placed.mainThread rfl rfl rfl ?_ (woken_update _) ?_ ?_ ⟨fun _ => ?_, fun _ => rfl⟩
        (fun _ => rfl) rfl
      · simp only [closing]
        exact .inr (.inl (Function.update_self _ _ _))
      · simp only [closing]
        exact joined
      · simp only [closing]
        exact fun _ before => absurd before (Nat.not_lt_zero _)
      · simp only [closing, MPMCMainPoint.HasClosed, Function.update_self]
        exact nofun
  | tells closing here notifies =>
      have closed := placed.closed
      rw [closing, here] at closed
      refine placed.mainThread rfl rfl rfl ?_ notifies.others placed.joinedProducers
        placed.joinedConsumers ?_ ?_ (congrArg MPMCQueue.buffer notifies.queue)
      · simp only [closing]
        exact .inr (.inr notifies.own)
      · simp only [closing, notifies.own, notifies.queue]
        exact ⟨fun _ => nofun, fun _ => closed.mpr nofun⟩
      · simp only [notifies.queue]
        exact fun shut => shut
  | closed closing here notifies =>
      have joined := placed.joinedProducers
      have closed := placed.closed
      rw [closing] at joined
      rw [closing, here] at closed
      refine placed.mainThread rfl rfl rfl notifies.own notifies.others joined
        (fun _ before => absurd before (Nat.not_lt_zero _)) ?_ ?_
        (congrArg MPMCQueue.buffer notifies.queue)
      · simp only [notifies.queue]
        exact ⟨fun _ => trivial, fun _ => closed.mpr nofun⟩
      · simp only [notifies.queue]
        exact fun shut => shut
  | @joinsConsumer index joining inside exited =>
      have here := placed.main
      have producers := placed.joinedProducers
      have joined := placed.joinedConsumers
      have closed := placed.closed
      rw [joining] at here producers joined closed
      refine placed.mainThread rfl rfl rfl here (state.woken_self _) producers
        (fun id before => ?_) closed (fun shut => shut) rfl
      rcases Nat.lt_succ_iff_lt_or_eq.mp before with earlier | same
      · exact joined id earlier
      · rw [← exited]
        exact congrArg state.consumers (Fin.ext same)
  | @prints index joining done =>
      have here := placed.main
      have producers := placed.joinedProducers
      have joined := placed.joinedConsumers
      have closed := placed.closed
      rw [joining] at here producers joined closed
      exact placed.mainThread rfl rfl rfl here (state.woken_self _) producers
        (fun id _ => joined id (lt_of_lt_of_le id.isLt (Nat.le_of_not_lt done))) closed
        (fun shut => shut) rfl

theorem Placed.moves (placed : state.Placed) {event : MPMCMainEvent args}
    (moves : state.Moves event next) : next.Placed := by
  cases moves with
  | stays _ => exact placed
  | wakes _ queue _ woken => exact placed.wake queue woken
  | producer moves => exact placed.producerMoves moves
  | consumer moves => exact placed.consumerMoves moves
  | main moves => exact placed.mainMoves moves

end MPMCMain

end Lob
