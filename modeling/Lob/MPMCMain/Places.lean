import Lob.MPMCMain
import Lob.ShardedEngine.TradeOrder

/-!
# Where the threads of `mpmc_matching_main` are

Where a thread is in its own program and where it is in the queue go together. `Placed` says
so for all threads, and what it means for the queue that the main thread has closed it and that
a consumer has left.
-/

namespace Lob

variable {T : Type} {threads : Nat}

/-- What the steps of other threads do to a thread in the queue. -/
inductive MPMCPoint.Woken : MPMCPoint T → MPMCPoint T → Prop where
  | same (point : MPMCPoint T) : Woken point point
  | pop : Woken .blockedPop (.locking .pop)
  | push (item : T) : Woken (.blockedPush item) (.locking (.push item))

namespace MPMCRun

variable {run run' : MPMCRun T threads} {thread : Fin threads}

/-- A thread goes on to a point and may wake others; nothing else happens. -/
structure Notifies (run : MPMCRun T threads) (thread : Fin threads) (point : MPMCPoint T)
    (run' : MPMCRun T threads) : Prop where
  queue : run'.queue = run.queue
  history : run'.history = run.history
  own : run'.points thread = point
  others : ∀ other, other ≠ thread → (run.points other).Woken (run'.points other)

theorem step_call (outside : run.points thread = .outside) (call : MPMCCall T) :
    run.step (.call thread call) = run.setPoint thread (.locking call) := by
  simp only [step, outside]

theorem woken_wokenPop (point : MPMCPoint T) : point.Woken (point.wokenPop.getD point) := by
  cases point with
  | blockedPop => exact .pop
  | _ => exact .same _

theorem woken_wokenPush (point : MPMCPoint T) : point.Woken (point.wokenPush.getD point) := by
  cases point with
  | blockedPush item => exact .push item
  | _ => exact .same _

theorem woken_setPoint {point : MPMCPoint T} (woken : (run.points thread).Woken point)
    (other : Fin threads) :
    (run.points other).Woken ((run.setPoint thread point).points other) := by
  by_cases here : other = thread
  · subst here
    simpa only [setPoint, Function.update_self] using woken
  · simp only [setPoint, Function.update_of_ne here]
    exact .same _

theorem notifyOne_woken {wakes : MPMCPoint T → Option (MPMCPoint T)}
    (woken : ∀ point : MPMCPoint T, point.Woken ((wakes point).getD point))
    (picked other : Fin threads) :
    (run.points other).Woken ((run.notifyOne wakes picked).points other) := by
  unfold notifyOne
  split
  · exact .same _
  · exact woken_setPoint (woken _) other

/-- A thread moves on by itself. -/
theorem notifies_setPoint (middle : MPMCRun T threads) (queue : middle.queue = run.queue)
    (history : middle.history = run.history)
    (woken : ∀ other, (run.points other).Woken (middle.points other)) (point : MPMCPoint T) :
    run.Notifies thread point (middle.setPoint thread point) where
  queue := queue
  history := history
  own := Function.update_self _ _ _
  others other different := by
    simp only [setPoint, Function.update_of_ne different]
    exact woken other

theorem go_notifyNotEmpty (here : run.points thread = .notifyNotEmpty) (picked : Fin threads) :
    run.Notifies thread .outside (run.go thread picked) := by
  obtain ⟨queue, history⟩ := run.notifyOne_queue MPMCPoint.wokenPop picked
  simp only [go, here]
  exact notifies_setPoint _ queue history (notifyOne_woken woken_wokenPop picked) _

theorem go_notifyNotFull (here : run.points thread = .notifyNotFull) (picked : Fin threads) :
    run.Notifies thread .outside (run.go thread picked) := by
  obtain ⟨queue, history⟩ := run.notifyOne_queue MPMCPoint.wokenPush picked
  simp only [go, here]
  exact notifies_setPoint _ queue history (notifyOne_woken woken_wokenPush picked) _

theorem go_notifyAllNotEmpty (here : run.points thread = .notifyAllNotEmpty)
    (picked : Fin threads) : run.Notifies thread .notifyAllNotFull (run.go thread picked) := by
  have woken (other : Fin threads) :
      (run.points other).Woken ((run.notifyAll MPMCPoint.wokenPop).points other) :=
    woken_wokenPop _
  simp only [go, here]
  refine notifies_setPoint _ ?_ ?_ woken _ <;> rfl

theorem go_notifyAllNotFull (here : run.points thread = .notifyAllNotFull)
    (picked : Fin threads) : run.Notifies thread .outside (run.go thread picked) := by
  have woken (other : Fin threads) :
      (run.points other).Woken ((run.notifyAll MPMCPoint.wokenPush).points other) :=
    woken_wokenPush _
  simp only [go, here]
  refine notifies_setPoint _ ?_ ?_ woken _ <;> rfl

end MPMCRun

/-! ### Where the threads are -/

/-- The order is one that a producer has filled in. -/
def SymbolOrder.Generated (item : SymbolOrder) : Prop :=
  ∃ symbol : Fin 6, ∃ id draw, item = ⟨mpmcSymbols.get symbol, producerOrder id draw⟩

namespace MPMCArgs

variable {args : MPMCArgs}

theorem consumerThread_injective : Function.Injective args.consumerThread := fun _ _ same =>
  Fin.ext (Fin.mk.inj same)

theorem producerThread_injective : Function.Injective args.producerThread := fun _ _ same =>
  Fin.ext (Nat.add_left_cancel (Fin.mk.inj same))

theorem consumerThread_ne_producerThread (consumer : Fin args.consumers)
    (producer : Fin args.producers) : args.consumerThread consumer ≠ args.producerThread producer :=
  fun same => by
    have numbers : consumer.val = args.consumers + producer.val := congrArg Fin.val same
    omega

theorem consumerThread_ne_mainThread (consumer : Fin args.consumers) :
    args.consumerThread consumer ≠ args.mainThread := fun same => by
  have numbers : consumer.val = args.consumers + args.producers := congrArg Fin.val same
  omega

theorem producerThread_ne_mainThread (producer : Fin args.producers) :
    args.producerThread producer ≠ args.mainThread := fun same => by
  have numbers : args.consumers + producer.val = args.consumers + args.producers :=
    congrArg Fin.val same
  omega

/-- Where a producer is in the queue. -/
def ProducerAt (args : MPMCArgs) : MPMCProducerPoint → MPMCPoint SymbolOrder → Prop
  | .generating i, point => i ≤ args.ordersPerProducer ∧ point = .outside
  | .pushing i, point => i < args.ordersPerProducer ∧ ((∃ item : SymbolOrder, item.Generated ∧
      (point = .locking (.push item) ∨ point = .blockedPush item)) ∨ point = .notifyNotEmpty)
  | .counting i, point => i < args.ordersPerProducer ∧ point = .outside
  | .returned, point => point = .outside

end MPMCArgs

/-- Where a consumer is in the queue. -/
def MPMCConsumerPoint.At : MPMCConsumerPoint → MPMCPoint SymbolOrder → Prop
  | .popping, point => point = .locking .pop ∨ point = .blockedPop
  | .leaving item, point => item.Generated ∧ point = .notifyNotFull
  | .submitting item, point => item.Generated ∧ point = .outside
  | _, point => point = .outside

/-- Where a consumer is in the engine. -/
def MPMCConsumerPoint.Works : MPMCConsumerPoint → SubmitPoint → Prop
  | .submitting item, worker => worker = .outside ∨
      ∃ trades tradeCount, worker = .recording item.symbol trades tradeCount
  | _, worker => worker = .outside

namespace MPMCMainPoint

/-- Where the main thread is in the queue. -/
def At : MPMCMainPoint → MPMCPoint SymbolOrder → Prop
  | .closing, point =>
      point = .locking .close ∨ point = .notifyAllNotEmpty ∨ point = .notifyAllNotFull
  | _, point => point = .outside

/-- So many producers have been joined. -/
def joinedProducers (producers : Nat) : MPMCMainPoint → Nat
  | .joiningProducers index => index
  | _ => producers

/-- So many consumers have been joined. -/
def joinedConsumers (consumers : Nat) : MPMCMainPoint → Nat
  | .joiningProducers _ => 0
  | .closing => 0
  | .joiningConsumers index => index
  | .returned _ => consumers

/-- The queue has been closed when the main thread is there. -/
def HasClosed : MPMCMainPoint → MPMCPoint SymbolOrder → Prop
  | .joiningProducers _, _ => False
  | .closing, point => point ≠ .locking .close
  | _, _ => True

end MPMCMainPoint

namespace MPMCMain

variable {args : MPMCArgs} {state next : MPMCMain args}

/-- Every thread is where its program says. -/
structure Placed (state : MPMCMain args) : Prop where
  producers : ∀ id, args.ProducerAt (state.producers id)
    (state.queue.points (args.producerThread id))
  consumers : ∀ id, (state.consumers id).At (state.queue.points (args.consumerThread id))
  workers : ∀ id, (state.consumers id).Works (state.engine.workers id)
  main : state.main.At (state.queue.points args.mainThread)
  joinedProducers : ∀ id : Fin args.producers, id.val < state.main.joinedProducers args.producers →
    state.producers id = .returned
  joinedConsumers : ∀ id : Fin args.consumers, id.val < state.main.joinedConsumers args.consumers →
    state.consumers id = .exited
  closed : state.queue.queue.closed = true ↔
    state.main.HasClosed (state.queue.points args.mainThread)
  drained : ∀ id, state.consumers id = .exited →
    state.queue.queue.closed = true ∧ state.queue.queue.buffer = []
  buffered : ∀ item ∈ state.queue.queue.buffer, item.Generated

theorem placed_initial (args : MPMCArgs) : (initial args).Placed where
  producers _ := ⟨Nat.zero_le _, rfl⟩
  consumers _ := rfl
  workers _ := rfl
  main := rfl
  joinedProducers _ joined := absurd joined (Nat.not_lt_zero _)
  joinedConsumers _ joined := absurd joined (Nat.not_lt_zero _)
  closed := ⟨fun closed => absurd closed Bool.false_ne_true, False.elim⟩
  drained _ exited := absurd exited nofun
  buffered _ member := absurd member List.not_mem_nil

end MPMCMain

end Lob
