import Lob.MPMCMain.Places

/-!
# What the threads of `mpmc_matching_main` can do

Each step of the program is a move of one thread, in one of a few ways, or it leaves the
program as it is. Every invariant is then a lemma about the moves of a producer, one about
those of a consumer and one about those of the main thread.
-/

namespace Lob

namespace MPMCMain

variable {args : MPMCArgs} {state next : MPMCMain args} {id : Fin args.producers}

/-- The thread whose turn it is has nothing to do. -/
inductive Waits (state : MPMCMain args) : MPMCMainEvent args → Prop where
  | producerReturned {id : Fin args.producers} {symbol : Fin 6} {draw : Draw 9900 10100 100}
      {woken : Fin args.threads} (returned : state.producers id = .returned) :
      Waits state (.producer id symbol draw woken)
  | producerBlocked {id : Fin args.producers} {symbol : Fin 6} {draw : Draw 9900 10100 100}
      {woken : Fin args.threads} {item : SymbolOrder}
      (blocked : state.queue.points (args.producerThread id) = .blockedPush item) :
      Waits state (.producer id symbol draw woken)
  | consumerExited {id : Fin args.consumers} {woken : Fin args.threads}
      (exited : state.consumers id = .exited) : Waits state (.consumer id woken)
  | consumerBlocked {id : Fin args.consumers} {woken : Fin args.threads}
      (blocked : state.queue.points (args.consumerThread id) = .blockedPop) :
      Waits state (.consumer id woken)
  | joinsProducer {woken : Fin args.threads} {index : Nat}
      (joining : state.main = .joiningProducers index) (inside : index < args.producers)
      (running : state.producers ⟨index, inside⟩ ≠ .returned) : Waits state (.main woken)
  | joinsConsumer {woken : Fin args.threads} {index : Nat}
      (joining : state.main = .joiningConsumers index) (inside : index < args.consumers)
      (running : state.consumers ⟨index, inside⟩ ≠ .exited) : Waits state (.main woken)
  | mainReturned {woken : Fin args.threads} {summary : MPMCSummary}
      (returned : state.main = .returned summary) : Waits state (.main woken)
  | awake {thread : Fin args.threads} : Waits state (.spurious thread)

/-- What a producer can do. -/
inductive ProducerMoves (state : MPMCMain args) : MPMCMain args → Prop where
  | generates {id : Fin args.producers} {i : Nat} {symbol : Fin 6} {draw : Draw 9900 10100 100}
      (generating : state.producers id = .generating i) (more : i < args.ordersPerProducer) :
      ProducerMoves state ({ state with
        idGen := state.idGen + 1
        queue := state.queue.setPoint (args.producerThread id) (.locking
          (.push ⟨mpmcSymbols[symbol], producerOrder state.idGen draw⟩)) }.setProducer id
            (.pushing i))
  | finishes {id : Fin args.producers} {i : Nat} (generating : state.producers id = .generating i)
      (done : ¬i < args.ordersPerProducer) : ProducerMoves state (state.setProducer id .returned)
  | blocksPush {id : Fin args.producers} {i : Nat} {item : SymbolOrder}
      (pushing : state.producers id = .pushing i)
      (locking : state.queue.points (args.producerThread id) = .locking (.push item)) :
      ProducerMoves state { state with
        queue := state.queue.setPoint (args.producerThread id) (.blockedPush item) }
  | pushes {id : Fin args.producers} {i : Nat} {item : SymbolOrder} {queue : MPMCQueue SymbolOrder}
      (pushing : state.producers id = .pushing i)
      (locking : state.queue.points (args.producerThread id) = .locking (.push item))
      (inserts : state.queue.queue.Inserts item queue) :
      ProducerMoves state { state with
        queue :=
          { queue
            points := Function.update state.queue.points (args.producerThread id) .notifyNotEmpty
            history := state.queue.history ++ [.pushed item] } }
  | announces {id : Fin args.producers} {i : Nat} {run : MPMCRun SymbolOrder args.threads}
      (pushing : state.producers id = .pushing i)
      (here : state.queue.points (args.producerThread id) = .notifyNotEmpty)
      (notifies : state.queue.Notifies (args.producerThread id) .outside run) :
      ProducerMoves state ({ state with queue := run }.setProducer id (.counting i))
  | counts {id : Fin args.producers} {i : Nat} (counting : state.producers id = .counting i) :
      ProducerMoves state
        ({ state with produced := state.produced + 1 }.setProducer id (.generating (i + 1)))

/-- What a consumer can do. -/
inductive ConsumerMoves (state : MPMCMain args) : MPMCMain args → Prop where
  | calls {id : Fin args.consumers} (calling : state.consumers id = .calling) :
      ConsumerMoves state ({ state with
        queue := state.queue.setPoint (args.consumerThread id) (.locking .pop) }.setConsumer id
          .popping)
  | blocksPop {id : Fin args.consumers} (popping : state.consumers id = .popping)
      (locking : state.queue.points (args.consumerThread id) = .locking .pop) :
      ConsumerMoves state { state with
        queue := state.queue.setPoint (args.consumerThread id) .blockedPop }
  | pops {id : Fin args.consumers} {item : SymbolOrder} {rest : List SymbolOrder}
      (popping : state.consumers id = .popping)
      (locking : state.queue.points (args.consumerThread id) = .locking .pop)
      (front : state.queue.queue.buffer = item :: rest) :
      ConsumerMoves state ({ state with
        queue :=
          { queue := { state.queue.queue with buffer := rest }
            points := Function.update state.queue.points (args.consumerThread id) .notifyNotFull
            history := state.queue.history ++ [MPMCOutcome.popped item] } }.setConsumer id
        (.leaving item))
  | drains {id : Fin args.consumers} (popping : state.consumers id = .popping)
      (locking : state.queue.points (args.consumerThread id) = .locking .pop)
      (closed : state.queue.queue.closed = true) (empty : state.queue.queue.buffer = []) :
      ConsumerMoves state ({ state with
        queue :=
          { queue := state.queue.queue
            points := Function.update state.queue.points (args.consumerThread id) .outside
            history := state.queue.history ++ [MPMCOutcome.drained] } }.setConsumer id .exited)
  | leaves {id : Fin args.consumers} {item : SymbolOrder}
      {run : MPMCRun SymbolOrder args.threads} (leaving : state.consumers id = .leaving item)
      (notifies : state.queue.Notifies (args.consumerThread id) .outside run) :
      ConsumerMoves state ({ state with queue := run }.setConsumer id (.submitting item))
  | submits {id : Fin args.consumers} {item : SymbolOrder} {response : Response}
      (submitting : state.consumers id = .submitting item)
      (outside : state.engine.workers id = .outside)
      (processed : ((state.engine.engineOf item.symbol).getD (.fresh {})).apply
        (.newOrder item.order) [] = .ok response) :
      ConsumerMoves state { state with
        engine := { state.engine.setEngine item.symbol response.engine with
          generated := Function.update state.engine.generated item.symbol
            (state.engine.generated item.symbol ++ response.outTrades) }.setWorker id
          (.recording item.symbol response.outTrades response.outTrades.length)
        submitted := state.submitted ++ [⟨item, response⟩] }
  | records {id : Fin args.consumers} {item : SymbolOrder} {trade : Trade} {trades : List Trade}
      {tradeCount : Nat} (submitting : state.consumers id = .submitting item)
      (recording : state.engine.workers id = .recording item.symbol (trade :: trades) tradeCount) :
      ConsumerMoves state { state with
        engine := { state.engine with
          tradeLog := state.engine.tradeLog.record item.symbol trade }.setWorker id
            (.recording item.symbol trades tradeCount) }
  | returns {id : Fin args.consumers} {item : SymbolOrder} {tradeCount : Nat}
      (submitting : state.consumers id = .submitting item)
      (recorded : state.engine.workers id = .recording item.symbol [] tradeCount) :
      ConsumerMoves state ({ state with
        engine := state.engine.returnWith id (.submitted tradeCount) }.setConsumer id
          (.countingTrades tradeCount))
  | countsTrades {id : Fin args.consumers} {tradeCount : Nat}
      (counting : state.consumers id = .countingTrades tradeCount) :
      ConsumerMoves state ({ state with
        tradesGenerated := state.tradesGenerated + UInt64.ofNat tradeCount }.setConsumer id
          .countingOrder)
  | countsOrder {id : Fin args.consumers} (counting : state.consumers id = .countingOrder) :
      ConsumerMoves state ({ state with consumed := state.consumed + 1 }.setConsumer id .calling)

/-- What the main thread can do. -/
inductive MainMoves (state : MPMCMain args) : MPMCMain args → Prop where
  | joinsProducer {index : Nat} (joining : state.main = .joiningProducers index)
      (inside : index < args.producers) (returned : state.producers ⟨index, inside⟩ = .returned) :
      MainMoves state { state with main := .joiningProducers (index + 1) }
  | closes {index : Nat} (joining : state.main = .joiningProducers index)
      (done : ¬index < args.producers) :
      MainMoves state { state with
        queue := state.queue.setPoint args.mainThread (.locking .close)
        main := .closing }
  | shuts (closing : state.main = .closing)
      (locking : state.queue.points args.mainThread = .locking .close) :
      MainMoves state { state with
        queue :=
          { queue := state.queue.queue.close
            points := Function.update state.queue.points args.mainThread .notifyAllNotEmpty
            history := state.queue.history ++ [.closed] } }
  | tells {run : MPMCRun SymbolOrder args.threads} (closing : state.main = .closing)
      (here : state.queue.points args.mainThread = .notifyAllNotEmpty)
      (notifies : state.queue.Notifies args.mainThread .notifyAllNotFull run) :
      MainMoves state { state with queue := run }
  | closed {run : MPMCRun SymbolOrder args.threads} (closing : state.main = .closing)
      (here : state.queue.points args.mainThread = .notifyAllNotFull)
      (notifies : state.queue.Notifies args.mainThread .outside run) :
      MainMoves state { state with queue := run, main := .joiningConsumers 0 }
  | joinsConsumer {index : Nat} (joining : state.main = .joiningConsumers index)
      (inside : index < args.consumers) (exited : state.consumers ⟨index, inside⟩ = .exited) :
      MainMoves state { state with main := .joiningConsumers (index + 1) }
  | prints {index : Nat} (joining : state.main = .joiningConsumers index)
      (done : ¬index < args.consumers) :
      MainMoves state { state with main := .returned state.summary }

/-- What a step can do. -/
inductive Moves (state : MPMCMain args) (event : MPMCMainEvent args) : MPMCMain args → Prop where
  | stays (waits : state.Waits event) : Moves state event state
  | wakes {thread : Fin args.threads} {run : MPMCRun SymbolOrder args.threads}
      (spurious : event = .spurious thread) (queue : run.queue = state.queue.queue)
      (history : run.history = state.queue.history)
      (woken : ∀ other, (state.queue.points other).Woken (run.points other)) :
      Moves state event { state with queue := run }
  | producer {next : MPMCMain args} (moves : state.ProducerMoves next) : Moves state event next
  | consumer {next : MPMCMain args} (moves : state.ConsumerMoves next) : Moves state event next
  | main {next : MPMCMain args} (moves : state.MainMoves next) : Moves state event next

/-- A step in the queue that leaves the producer where it is. -/
theorem setProducer_self {point : MPMCProducerPoint} (same : state.producers id = point)
    (queue : MPMCRun SymbolOrder args.threads) :
    { state with queue }.setProducer id point = { state with queue } := by
  simp only [setProducer, ← same, Function.update_eq_self]

theorem setConsumer_self {id : Fin args.consumers} {point : MPMCConsumerPoint}
    (same : state.consumers id = point) (queue : MPMCRun SymbolOrder args.threads) :
    { state with queue }.setConsumer id point = { state with queue } := by
  simp only [setConsumer, ← same, Function.update_eq_self]

/-- The queue is open as long as a producer runs. -/
theorem Placed.opened (placed : state.Placed) (running : state.producers id ≠ .returned) :
    state.queue.queue.closed = false := by
  by_contra closed
  have reached := placed.closed.mp (Bool.not_eq_false _ ▸ closed)
  refine running (placed.joinedProducers id ?_)
  cases point : state.main with
  | joiningProducers index =>
      rw [point] at reached
      exact reached.elim
  | _ => exact id.isLt

/-- A section of `push`. -/
theorem pushStep_moves (placed : state.Placed) {i : Nat} {item : SymbolOrder}
    (woken : Fin args.threads) (pushing : state.producers id = .pushing i)
    (locking : state.queue.points (args.producerThread id) = .locking (.push item)) :
    state.ProducerMoves ({ state with
      queue := state.queue.go (args.producerThread id) woken }.setProducer id
        (match (state.queue.go (args.producerThread id) woken).points (args.producerThread id) with
          | .outside => .returned
          | _ => .pushing i)) := by
  have opened := placed.opened (by rw [pushing]; exact nofun : state.producers id ≠ .returned)
  have acts := state.queue.queue.acts_locked (.push item)
  simp only [MPMCRun.go, locking, MPMCRun.lock, Function.update_self]
  generalize state.queue.queue.locked (.push item) = answer at acts
  cases acts with
  | pushes inserts =>
      simp only [setProducer_self pushing]
      exact .pushes pushing locking inserts
  | pushRefused closed => exact absurd (opened.symm.trans closed) Bool.false_ne_true
  | pushWaits _ _ =>
      simp only [setProducer_self pushing, Option.toList, List.append_nil]
      exact .blocksPush pushing locking

theorem producerStep_moves (placed : state.Placed) (id : Fin args.producers) (symbol : Fin 6)
    (draw : Draw 9900 10100 100) (woken : Fin args.threads) :
    state.Moves (.producer id symbol draw woken) (state.producerStep id symbol draw woken) := by
  have at_ := placed.producers id
  unfold producerStep
  cases point : state.producers id with
  | generating i =>
      rw [point] at at_
      dsimp only
      split
      · rename_i more
        rw [MPMCRun.step_call at_.2]
        exact .producer (.generates point more)
      · exact .producer (.finishes point ‹_›)
  | pushing i =>
      rw [point] at at_
      obtain ⟨_, ⟨item, _, locking | blocked⟩ | notifying⟩ := at_
      · simp only [locking]
        exact .producer (pushStep_moves placed woken point locking)
      · simp only [blocked]
        exact .stays (.producerBlocked blocked)
      · simp only [notifying]
        exact .producer (.announces point notifying (MPMCRun.go_notifyNotEmpty notifying woken))
  | counting i => exact .producer (.counts point)
  | returned => exact .stays (.producerReturned point)

/-- A section of `pop`. -/
theorem popStep_moves {id : Fin args.consumers} (woken : Fin args.threads)
    (popping : state.consumers id = .popping)
    (locking : state.queue.points (args.consumerThread id) = .locking .pop) :
    state.ConsumerMoves ({ state with
      queue := state.queue.go (args.consumerThread id) woken }.setConsumer id
        (match state.queue.queue.pop with
          | none => .popping
          | some (_, some item) => .leaving item
          | some (_, none) => .exited)) := by
  simp only [MPMCRun.go, locking, MPMCRun.lock, MPMCQueue.locked]
  cases items : state.queue.queue.buffer with
  | cons item rest =>
      have popped : state.queue.queue.pop =
          some ({ state.queue.queue with buffer := rest }, some item) := by
        simp [MPMCQueue.pop, items]
      simp only [popped]
      exact .pops popping locking items
  | nil =>
      cases closed : state.queue.queue.closed with
      | true =>
          have drained : state.queue.queue.pop = some (state.queue.queue, none) := by
            simp [MPMCQueue.pop, items, closed]
          simp only [drained]
          exact .drains popping locking closed items
      | false =>
          have waits : state.queue.queue.pop = none := by simp [MPMCQueue.pop, items, closed]
          simp only [waits, setConsumer_self popping, Option.toList, List.append_nil]
          exact .blocksPop popping locking

theorem submitStep_moves (placed : state.Placed) (steady : state.engine.Steady)
    {id : Fin args.consumers} {item : SymbolOrder}
    (submitting : state.consumers id = .submitting item) :
    state.ConsumerMoves (state.submitStep id item) := by
  have works := placed.workers id
  rw [submitting] at works
  unfold submitStep
  rcases works with outside | ⟨trades, tradeCount, recording⟩
  · obtain ⟨response, processed, _⟩ :=
      (steady.consistent item.symbol).apply (.newOrder item.order) []
    have direct : ((state.engine.engineOf item.symbol).getD (.fresh {})).processOrder item.order []
        = .ok response := processed
    simp only [outside, ShardedEngine.step, ShardedEngine.submit, direct, List.length_nil,
      List.drop_zero]
    exact .submits submitting outside processed
  · cases trades with
    | nil =>
        simp only [recording, ShardedEngine.step]
        exact .returns submitting recording
    | cons trade trades =>
        simp only [recording, ShardedEngine.step]
        exact .records submitting recording

theorem consumerStep_moves (placed : state.Placed) (steady : state.engine.Steady)
    (id : Fin args.consumers) (woken : Fin args.threads) :
    state.Moves (.consumer id woken) (state.consumerStep id woken) := by
  have at_ := placed.consumers id
  unfold consumerStep
  cases point : state.consumers id with
  | calling =>
      rw [point] at at_
      dsimp only
      rw [MPMCRun.step_call at_]
      exact .consumer (.calls point)
  | popping =>
      rw [point] at at_
      rcases at_ with locking | blocked
      · simp only [locking]
        exact .consumer (popStep_moves woken point locking)
      · simp only [blocked]
        exact .stays (.consumerBlocked blocked)
  | leaving item =>
      rw [point] at at_
      exact .consumer (.leaves point (MPMCRun.go_notifyNotFull at_.2 woken))
  | submitting item => exact .consumer (submitStep_moves placed steady point)
  | countingTrades tradeCount => exact .consumer (.countsTrades point)
  | countingOrder => exact .consumer (.countsOrder point)
  | exited => exact .stays (.consumerExited point)

theorem mainStep_moves (placed : state.Placed) (woken : Fin args.threads) :
    state.Moves (.main woken) (state.mainStep woken) := by
  have at_ := placed.main
  unfold mainStep
  cases point : state.main with
  | joiningProducers index =>
      rw [point] at at_
      dsimp only
      split
      · rename_i inside
        split
        · exact .main (.joinsProducer point inside ‹_›)
        · exact .stays (.joinsProducer point inside ‹_›)
      · rw [MPMCRun.step_call at_]
        exact .main (.closes point ‹_›)
  | closing =>
      rw [point] at at_
      rcases at_ with locking | telling | telling
      · simp only [MPMCRun.go, locking, MPMCRun.lock, MPMCQueue.locked, Function.update_self]
        rw [← point]
        exact .main (.shuts point locking)
      · have notifies := MPMCRun.go_notifyAllNotEmpty telling woken
        simp only [notifies.own]
        rw [← point]
        exact .main (.tells point telling notifies)
      · have notifies := MPMCRun.go_notifyAllNotFull telling woken
        simp only [notifies.own]
        exact .main (.closed point telling notifies)
  | joiningConsumers index =>
      dsimp only
      split
      · rename_i inside
        split
        · exact .main (.joinsConsumer point inside ‹_›)
        · exact .stays (.joinsConsumer point inside ‹_›)
      · exact .main (.prints point ‹_›)
  | returned summary => exact .stays (.mainReturned point)

theorem step_moves (placed : state.Placed) (steady : state.engine.Steady)
    (event : MPMCMainEvent args) : state.Moves event (state.step event) := by
  cases event with
  | main woken => exact mainStep_moves placed woken
  | producer id symbol draw woken => exact producerStep_moves placed id symbol draw woken
  | consumer id woken => exact consumerStep_moves placed steady id woken
  | spurious thread =>
      rw [step]
      split
      · rename_i item blocked
        simp only [MPMCRun.go, blocked]
        exact .wakes rfl rfl rfl (MPMCRun.woken_setPoint (by rw [blocked]; exact .push item))
      · rename_i blocked
        simp only [MPMCRun.go, blocked]
        exact .wakes rfl rfl rfl (MPMCRun.woken_setPoint (by rw [blocked]; exact .pop))
      · exact .stays .awake

end MPMCMain

end Lob
