import Lob.PartitionedEngine.Open
import Lob.PartitionedMain

/-!
# The producers of `partitioned_matching_main`

Each producer thread numbers its orders and hands them to the engine one after the other. The
producers and the engine meet in one balance: the queues have taken exactly the orders that the
loops of the producers have passed on.
-/

namespace Lob

/-- The order that a command names. -/
def Command.orderId : Command → UInt64
  | .newOrder order => order.id
  | .cancel orderId => orderId

/-- The command enqueues the order of this iteration. -/
def PartitionedArgs.Generates (args : PartitionedArgs) (producer : Fin args.producers) (i : Nat)
    (command : PartitionedCommand) : Prop :=
  command.completion = false ∧ ∃ draw, command.command =
    .newOrder (generateOrder (args.orderId producer i) draw args.advancedOrders)

/-- What the place of a producer thread says about its call of the engine. -/
def PartitionedArgs.Carries (args : PartitionedArgs) (producer : Fin args.producers) :
    DriverPoint → ProducerPoint → Prop
  | .generating i, point => point = .idle ∧ i ≤ args.ordersPerProducer
  | .enqueueing i, point => i < args.ordersPerProducer ∧ ∃ command,
      args.Generates producer i command ∧ (point = .admitted command true ∨
        point = .counted command true ∨ point = .inserted command)
  | .failing, _ => False
  | _, point => point = .idle

/-- How many orders of a producer the queues have taken when it is there. -/
def PartitionedArgs.sentAt (args : PartitionedArgs) : DriverPoint → ProducerPoint → Nat
  | .generating i, _ => i
  | .enqueueing i, .inserted _ => i + 1
  | .enqueueing i, _ => i
  | .returned, _ => args.ordersPerProducer
  | _, _ => 0

/-- How many such orders are among the first ones of a producer. -/
def PartitionedArgs.passed (args : PartitionedArgs) (kind : UInt64 → Bool)
    (producer : Fin args.producers) (count : Nat) : Nat :=
  (List.range count).countP (fun i => kind (args.orderId producer i))

theorem PartitionedArgs.passed_succ (args : PartitionedArgs) (kind : UInt64 → Bool)
    (producer : Fin args.producers) (count : Nat) :
    args.passed kind producer (count + 1) =
      args.passed kind producer count + if kind (args.orderId producer count) then 1 else 0 := by
  rw [passed, List.range_succ, List.countP_append, List.countP_singleton, passed]

theorem PartitionedArgs.Generates.orderId_eq {args : PartitionedArgs}
    {producer : Fin args.producers} {i : Nat} {command : PartitionedCommand}
    (generates : args.Generates producer i command) :
    command.command.orderId = args.orderId producer i := by
  obtain ⟨_, draw, same⟩ := generates
  rw [same]
  exact draw.order_id _ _

namespace PartitionedMain

variable {args : PartitionedArgs} {state next : PartitionedMain args}
variable {id : Fin args.producers} {i : Nat}

/-! ### The steps of a producer -/

/-- A producer thread that has returned, or waits for the others or for room in a queue. -/
inductive Waits (state : PartitionedMain args) (id : Fin args.producers) : Prop where
  | returned (returned : state.drivers id = .returned)
  | start (waiting : state.drivers id = .waiting) (unstarted : state.start = false)
  | room {command : PartitionedCommand}
      (counted : state.engine.producers id = .counted command true)
      (full : (state.engine.shards (args.config.shardIndex command.symbol)).queue.capacity ≤
        (state.engine.shards (args.config.shardIndex command.symbol)).queue.buffer.length)

/-- A step of a producer thread while the engine is open. -/
inductive DriverMoves (state : PartitionedMain args) (id : Fin args.producers) :
    PartitionedMain args → Prop where
  | stays (waits : state.Waits id) : DriverMoves state id state
  | readies (starting : state.drivers id = .starting) :
      DriverMoves state id ({ state with ready := state.ready + 1 }.setDriver id .waiting)
  | begins (waiting : state.drivers id = .waiting) (started : state.start = true) :
      DriverMoves state id (state.setDriver id (.generating 0))
  | calls {i : Nat} {command : PartitionedCommand} (generating : state.drivers id = .generating i)
      (more : i < args.ordersPerProducer) (generates : args.Generates id i command) :
      DriverMoves state id ({ state with
        engine := { state.engine with nextTicket := state.engine.nextTicket + 1 }.setProducer id
          (.admitted command true) }.setDriver id (.enqueueing i))
  | counts {i : Nat} {command : PartitionedCommand}
      (enqueueing : state.drivers id = .enqueueing i)
      (admitted : state.engine.producers id = .admitted command true) :
      DriverMoves state id { state with
        engine := { state.engine with pending := state.engine.pending + 1 }.setProducer id
          (.counted command true) }
  | inserts {i : Nat} {command : PartitionedCommand} {queue : MPMCQueue PartitionedCommand}
      (enqueueing : state.drivers id = .enqueueing i)
      (counted : state.engine.producers id = .counted command true)
      (inserts : (state.engine.shards (args.config.shardIndex command.symbol)).queue.Inserts
        command queue) :
      DriverMoves state id { state with
        engine := (state.engine.setShard (args.config.shardIndex command.symbol)
          { state.engine.shards (args.config.shardIndex command.symbol) with
            queue
            inserted := (state.engine.shards (args.config.shardIndex command.symbol)).inserted ++
              [command] }).setProducer id (.inserted command) }
  | submits {i : Nat} {command : PartitionedCommand}
      (enqueueing : state.drivers id = .enqueueing i)
      (inserted : state.engine.producers id = .inserted command) :
      DriverMoves state id ({ state with
        engine := { state.engine with
          submitted := state.engine.submitted + 1
          returned := state.engine.returned ++ [(command, true)] }.setProducer id .idle }.setDriver
            id (.generating (i + 1)))
  | returns {i : Nat} (generating : state.drivers id = .generating i)
      (done : ¬i < args.ordersPerProducer) :
      DriverMoves state id (state.setDriver id .returned)

theorem setDriver_self {point : DriverPoint} (same : state.drivers id = point) :
    state.setDriver id point = state := by
  rw [setDriver, ← same, Function.update_eq_self]

/-- A step that leaves the thread in `enqueue`. -/
theorem enqueueStep_of_busy {call : PartitionedCall} {engine : PartitionedEngine args.config}
    (enqueueing : state.drivers id = .enqueueing i)
    (before : ∀ command, state.engine.producers id ≠ .inserted command)
    (moved : state.engine.producerStep id call = engine) (after : engine.producers id ≠ .idle) :
    state.enqueueStep id i call = { state with engine } := by
  unfold enqueueStep
  dsimp only
  rw [moved]
  split
  · exact absurd ‹_› (before _)
  · rw [if_neg after]
    exact setDriver_self enqueueing

theorem enqueueStep_moves (opened : state.engine.Open)
    (enqueueing : state.drivers id = .enqueueing i)
    (carries : args.Carries id (.enqueueing i) (state.engine.producers id))
    (call : PartitionedCall) : state.DriverMoves id (state.enqueueStep id i call) := by
  obtain ⟨_, command, generates, admitted | counted | inserted⟩ := carries
  · rw [enqueueStep_of_busy enqueueing (by simp [admitted])
      (PartitionedEngine.producerStep_of_admitted admitted) (by simp)]
    exact .counts enqueueing admitted
  · rcases PartitionedEngine.producerStep_of_counted opened counted with
      ⟨full, waits⟩ | ⟨queue, inserts, moved⟩
    · rw [enqueueStep_of_busy enqueueing (by simp [counted]) (waits call) (by simp [counted])]
      exact .stays (.room counted full)
    · rw [enqueueStep_of_busy enqueueing (by simp [counted]) (moved call) (by simp)]
      exact .inserts enqueueing counted inserts
  · simp only [enqueueStep, inserted, PartitionedEngine.producerStep_of_inserted inserted]
    exact .submits enqueueing inserted

/-- While the engine is open, every step of a producer thread is one of the listed moves. -/
theorem producerStep_moves (opened : state.engine.Open) (id : Fin args.producers)
    (carries : args.Carries id (state.drivers id) (state.engine.producers id)) (symbol : Fin 8)
    (draw : Draw 9950 10050 250) : state.DriverMoves id (state.producerStep id symbol draw) := by
  unfold producerStep
  cases point : state.drivers id with
  | starting => exact .readies point
  | waiting =>
      dsimp only
      split
      · exact .begins point ‹_›
      · exact .stays (.start point (Bool.eq_false_iff.mpr ‹_›))
  | generating i =>
      rw [point] at carries
      dsimp only
      split
      · rename_i more
        have moved := PartitionedEngine.producerStep_of_idle opened.accepting carries.1
        simp only [enqueueStep, carries.1, moved, PartitionedEngine.producers_setProducer,
          Function.update_self, reduceCtorEq, if_false]
        exact .calls point more ⟨rfl, draw, rfl⟩
      · exact .returns point ‹_›
  | enqueueing i =>
      rw [point] at carries
      exact enqueueStep_moves opened point carries _
  | failing =>
      rw [point] at carries
      exact carries.elim
  | returned => exact .stays (.returned point)

/-! ### What the producers have passed on -/

def sent (state : PartitionedMain args) (id : Fin args.producers) : Nat :=
  args.sentAt (state.drivers id) (state.engine.producers id)

/-- How many commands with such an order the queues have taken. -/
def taken (state : PartitionedMain args) (kind : UInt64 → Bool) : Nat :=
  ∑ id, (state.engine.shards id).inserted.countP (fun command => kind command.command.orderId)

/-- The queues have taken what the producers have passed on, and no call was refused. -/
structure Drives (state : PartitionedMain args) : Prop where
  carries : ∀ id, args.Carries id (state.drivers id) (state.engine.producers id)
  balance : ∀ kind, state.taken kind = ∑ id, args.passed kind id (state.sent id)
  generated : ∀ id, ∀ command ∈ (state.engine.shards id).inserted,
    ∃ producer i, i < args.ordersPerProducer ∧ args.Generates producer i command
  ingress : state.ingressFailed = false

theorem drives_initial (args : PartitionedArgs) : (initial args).Drives where
  carries _ := rfl
  balance kind := by
    simp [taken, sent, initial, PartitionedEngine.initial, PartitionedArgs.passed,
      PartitionedArgs.sentAt]
  generated _ _ member := absurd member List.not_mem_nil
  ingress := rfl

/-- One producer goes on without passing an order on. -/
theorem Drives.walk (drives : state.Drives) (id : Fin args.producers) (point : DriverPoint)
    (call : ProducerPoint) (drivers : next.drivers = Function.update state.drivers id point)
    (producers : next.engine.producers = Function.update state.engine.producers id call)
    (carries : args.Carries id point call) (sent : args.sentAt point call = state.sent id)
    (inserted : ∀ shard, (next.engine.shards shard).inserted =
      (state.engine.shards shard).inserted)
    (ingress : next.ingressFailed = state.ingressFailed) : next.Drives where
  carries other := by
    rw [drivers, producers]
    by_cases here : other = id
    · subst here
      rw [Function.update_self, Function.update_self]
      exact carries
    · rw [Function.update_of_ne here, Function.update_of_ne here]
      exact drives.carries other
  balance kind := by
    have same : next.sent = state.sent := by
      funext other
      rw [PartitionedMain.sent, drivers, producers]
      by_cases here : other = id
      · subst here
        rw [Function.update_self, Function.update_self, sent]
      · rw [Function.update_of_ne here, Function.update_of_ne here]
        rfl
    simp only [taken, inserted, same]
    exact drives.balance kind
  generated := by
    simp only [inserted]
    exact drives.generated
  ingress := ingress.trans drives.ingress

/-- One producer passes its order on. -/
theorem Drives.pass (drives : state.Drives) {command : PartitionedCommand}
    {index : args.config.ShardId} {shard : Shard} (enqueueing : state.drivers id = .enqueueing i)
    (counted : state.engine.producers id = .counted command true)
    (drivers : next.drivers = state.drivers)
    (producers : next.engine.producers =
      Function.update state.engine.producers id (.inserted command))
    (shards : next.engine.shards = Function.update state.engine.shards index shard)
    (inserted : shard.inserted = (state.engine.shards index).inserted ++ [command])
    (ingress : next.ingressFailed = state.ingressFailed) : next.Drives := by
  have carries := drives.carries id
  rw [enqueueing, counted] at carries
  obtain ⟨more, command', generates, same | same | same⟩ := carries
  · contradiction
  · obtain ⟨rfl, _⟩ := ProducerPoint.counted.inj same
    refine ⟨fun other => ?_, fun kind => ?_, fun other taken member => ?_,
      ingress.trans drives.ingress⟩
    · rw [drivers, producers]
      by_cases here : other = id
      · subst here
        rw [enqueueing, Function.update_self]
        exact ⟨more, _, generates, .inr (.inr rfl)⟩
      · rw [Function.update_of_ne here]
        exact drives.carries other
    · -- one more command in its queue, and one more order of its producer
      have added := Waiting.sum_update
        (fun shard : Shard => shard.inserted.countP (fun taken => kind taken.command.orderId))
        state.engine.shards index shard
      have passed := Waiting.sum_update (fun count : Nat => count)
        (fun other => args.passed kind other (state.sent other)) id (args.passed kind id (i + 1))
      have before : state.sent id = i := by
        rw [sent, enqueueing, counted]
        rfl
      have after : (fun other => args.passed kind other (next.sent other)) = Function.update
          (fun other => args.passed kind other (state.sent other)) id
          (args.passed kind id (i + 1)) := by
        funext other
        rw [sent, drivers, producers]
        by_cases here : other = id
        · subst here
          rw [Function.update_self, Function.update_self, enqueueing]
          rfl
        · rw [Function.update_of_ne here, Function.update_of_ne here]
          rfl
      have count := drives.balance kind
      have more := args.passed_succ kind id i
      rw [inserted, List.countP_append, List.countP_singleton, generates.orderId_eq] at added
      rw [← after] at passed
      dsimp only at passed
      rw [before] at passed
      rw [taken] at count ⊢
      rw [shards]
      omega
    · rw [shards] at member
      by_cases here : other = index
      · subst here
        rw [Function.update_self, inserted] at member
        rcases List.mem_append.mp member with old | new
        · exact drives.generated other taken old
        · exact ⟨id, i, more, List.mem_singleton.mp new ▸ generates⟩
      · rw [Function.update_of_ne here] at member
        exact drives.generated other taken member
  · contradiction

theorem Drives.moves (drives : state.Drives) (moves : state.DriverMoves id next) : next.Drives := by
  have carries := drives.carries id
  have sameCall := (Function.update_eq_self id state.engine.producers).symm
  have sameDriver := (Function.update_eq_self id state.drivers).symm
  cases moves with
  | stays _ => exact drives
  | readies starting =>
      rw [starting] at carries
      exact drives.walk id .waiting _ rfl sameCall carries (by rw [sent, starting]; rfl)
        (fun _ => rfl) rfl
  | begins waiting _ =>
      rw [waiting] at carries
      exact drives.walk id (.generating 0) _ rfl sameCall ⟨carries, Nat.zero_le _⟩
        (by rw [sent, waiting]; rfl) (fun _ => rfl) rfl
  | calls generating more generates =>
      exact drives.walk id (.enqueueing _) (.admitted _ true) rfl rfl
        ⟨more, _, generates, .inl rfl⟩ (by rw [sent, generating]; rfl) (fun _ => rfl) rfl
  | counts enqueueing admitted =>
      rw [enqueueing, admitted] at carries
      obtain ⟨more, command, generates, same | same | same⟩ := carries
      · obtain ⟨rfl, _⟩ := ProducerPoint.admitted.inj same
        exact drives.walk id _ (.counted _ true) sameDriver rfl
          (by rw [enqueueing]; exact ⟨more, _, generates, .inr (.inl rfl)⟩)
          (by rw [sent, enqueueing, admitted]; rfl) (fun _ => rfl) rfl
      · contradiction
      · contradiction
  | inserts enqueueing counted _ =>
      exact drives.pass enqueueing counted rfl rfl rfl rfl rfl
  | submits enqueueing inserted =>
      rw [enqueueing] at carries
      exact drives.walk id (.generating _) .idle rfl rfl ⟨rfl, carries.1⟩
        (by rw [sent, enqueueing, inserted]; rfl) (fun _ => rfl) rfl
  | returns generating done =>
      rw [generating] at carries
      refine drives.walk id .returned _ rfl sameCall carries.1 ?_ (fun _ => rfl) rfl
      rw [sent, generating]
      exact Nat.le_antisymm (Nat.not_lt.mp done) carries.2

theorem DriverMoves.opened (moves : state.DriverMoves id next) (opened : state.engine.Open) :
    next.engine.Open := by
  cases moves with
  | inserts enqueueing counted inserts =>
      obtain ⟨closed, _, rfl⟩ := inserts
      exact ⟨opened.accepting, opened.closed_update closed⟩
  | _ => exact ⟨opened.accepting, opened.queues⟩

/-- Steps that move no call and no producer thread. -/
theorem Drives.frame (drives : state.Drives) (drivers : next.drivers = state.drivers)
    (same : PartitionedEngine.SameCalls state.engine next.engine)
    (ingress : next.ingressFailed = state.ingressFailed) : next.Drives where
  carries id := by
    rw [drivers, same.producers]
    exact drives.carries id
  balance kind := by
    simp only [taken, sent, drivers, same.producers, same.inserted]
    exact drives.balance kind
  generated := by
    simp only [same.inserted]
    exact drives.generated
  ingress := ingress.trans drives.ingress

theorem producerStep_reachable (reachable : state.engine.Reachable) (id : Fin args.producers)
    (symbol : Fin 8) (draw : Draw 9950 10050 250) :
    (state.producerStep id symbol draw).engine.Reachable := by
  unfold PartitionedMain.producerStep
  cases state.drivers id with
  | starting => exact reachable
  | waiting =>
      dsimp only
      split <;> exact reachable
  | generating i =>
      dsimp only
      split
      · exact reachable.step (.producer id _)
      · exact reachable
  | enqueueing i => exact reachable.step (.producer id _)
  | failing => exact reachable
  | returned => exact reachable

/-- A producer thread moves itself only. -/
theorem DriverMoves.frame (moves : state.DriverMoves id next) :
    (∀ other, other ≠ id → next.drivers other = state.drivers other) ∧
      next.main = state.main ∧ next.printed = state.printed := by
  have others (point : DriverPoint) (other : Fin args.producers) (different : other ≠ id) :
      Function.update state.drivers id point other = state.drivers other :=
    Function.update_of_ne different _ _
  cases moves with
  | stays _ => exact ⟨fun _ _ => rfl, rfl, rfl⟩
  | counts _ _ => exact ⟨fun _ _ => rfl, rfl, rfl⟩
  | inserts _ _ _ => exact ⟨fun _ _ => rfl, rfl, rfl⟩
  | _ => exact ⟨others _, rfl, rfl⟩

end PartitionedMain

end Lob
