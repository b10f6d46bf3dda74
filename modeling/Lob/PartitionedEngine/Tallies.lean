import Lob.PartitionedEngine.Shutdown
import Lob.PartitionedEngine.TradeWindow

/-!
# The counters of the workers and producers

A worker counts an applied command in five places, one after the other, and a producer
counts it after its queue has taken it, when it may be applied already. Each counter
therefore lags behind by what is in the hands of some thread.
-/

namespace Lob

/-- A counter of 64 bits has counted `total` but for what is still owed. -/
def Tally (value : UInt64) (owed total : Nat) : Prop :=
  ∃ counted, value = UInt64.ofNat counted ∧ counted + owed = total

namespace Tally

variable {value value' : UInt64} {owed owed' total total' : Nat}

/-- The counter is raised, and what is owed and the total change accordingly. -/
theorem count (tally : Tally value owed total) (amount : Nat)
    (raised : value' = value + UInt64.ofNat amount)
    (balance : amount + owed' + total = owed + total') : Tally value' owed' total' := by
  obtain ⟨counted, rfl, sum⟩ := tally
  exact ⟨counted + amount, by rw [raised, UInt64.ofNat_add], by omega⟩

theorem keep (tally : Tally value owed total) (balance : owed' + total = owed + total') :
    Tally value owed' total' :=
  tally.count 0 (by simp) (by omega)

theorem eq_of_settled (tally : Tally value 0 total) : value = UInt64.ofNat total := by
  obtain ⟨counted, rfl, rfl⟩ := tally
  rfl

end Tally

/-! ### The counters of the workers -/

/-- The counters that a worker raises for an applied command. -/
inductive WorkerCounter where
  | processed
  | accepted
  | rejected
  | trades
  | latency
  deriving DecidableEq

namespace WorkerCounter

/-- By how much a command raises the counter. -/
def weight : WorkerCounter → ProcessedCommand → Nat
  | .accepted, entry => if entry.result.report.accepted then 1 else 0
  | .rejected, entry => if entry.result.report.accepted then 0 else 1
  | .trades, entry => entry.result.trades.length
  | _, _ => 1

/-- By how much these commands raise the counter. -/
def total (counter : WorkerCounter) (entries : List ProcessedCommand) : Nat :=
  (entries.map counter.weight).sum

@[simp] theorem total_nil (counter : WorkerCounter) : counter.total [] = 0 := rfl

@[simp] theorem total_singleton (counter : WorkerCounter) (entry : ProcessedCommand) :
    counter.total [entry] = counter.weight entry := by simp [total]

@[simp] theorem total_append (counter : WorkerCounter) (front back : List ProcessedCommand) :
    counter.total (front ++ back) = counter.total front + counter.total back := by
  simp [total]

theorem total_cons (counter : WorkerCounter) (entry : ProcessedCommand)
    (entries : List ProcessedCommand) :
    counter.total (entry :: entries) = counter.weight entry + counter.total entries := by
  simp [total]

theorem total_eq_length {counter : WorkerCounter} (once : ∀ entry, counter.weight entry = 1)
    (entries : List ProcessedCommand) : counter.total entries = entries.length := by
  induction entries with
  | nil => rfl
  | cons entry entries ih =>
      rw [total_cons, once, ih, List.length_cons, Nat.add_comm]

/-- Every command is accepted or rejected. -/
theorem total_accepted_add_rejected (entries : List ProcessedCommand) :
    accepted.total entries + rejected.total entries = entries.length := by
  induction entries with
  | nil => rfl
  | cons entry entries ih =>
      have one : accepted.weight entry + rejected.weight entry = 1 := by
        cases outcome : entry.result.report.accepted <;> simp [weight, outcome]
      rw [total_cons, total_cons, List.length_cons]
      omega

end WorkerCounter

/-- The applied command that the worker has yet to count in this counter. -/
def WorkerPoint.uncounted : WorkerCounter → WorkerPoint → List ProcessedCommand
  | _, .recording entry _ => [entry]
  | .processed, _ => []
  | _, .countingOutcome entry => [entry]
  | .accepted, _ => []
  | .rejected, _ => []
  | _, .countingTrades entry => [entry]
  | .trades, _ => []
  | .latency, .timing entry => [entry]
  | .latency, _ => []

theorem WorkerPoint.uncounted_of_undelivered {point : WorkerPoint} (free : point.undelivered = [])
    (counter : WorkerCounter) : point.uncounted counter = [] := by
  cases counter <;> cases point <;> first | rfl | contradiction

namespace PartitionedEngine

variable {config : PartitionedConfig} {engine next : PartitionedEngine config} {id : config.ShardId}

def counter (engine : PartitionedEngine config) : WorkerCounter → UInt64
  | .processed => engine.processed
  | .accepted => engine.accepted
  | .rejected => engine.rejected
  | .trades => engine.trades
  | .latency => engine.latencyCount

/-- Every counter of the workers has counted what was applied but for what a worker has yet
to count. -/
def Tallied (engine : PartitionedEngine config) : Prop :=
  ∀ counter, Tally (engine.counter counter)
    (∑ id, counter.total ((engine.shards id).worker.uncounted counter))
    (∑ id, counter.total (engine.shards id).applied)

theorem tallied_initial (config : PartitionedConfig) : (initial config).Tallied := by
  intro counter
  refine ⟨0, ?_, ?_⟩
  · cases counter <;> rfl
  · cases counter <;> simp [initial, WorkerPoint.uncounted]

theorem Tallied.keep (tallied : engine.Tallied) (same : SameRecords engine next) :
    next.Tallied := by
  intro counter
  have sameCounter : next.counter counter = engine.counter counter := by
    cases counter with
    | processed => exact same.processed
    | accepted => exact same.accepted
    | rejected => exact same.rejected
    | trades => exact same.trades
    | latency => exact same.latencyCount
  simp only [sameCounter, same.applied, same.worker]
  exact tallied counter

/-- One worker raises a counter by as much as its command weighs, or lets it be. -/
theorem Tallied.update (tallied : engine.Tallied) {shard : Shard}
    (shards : next.shards = Function.update engine.shards id shard)
    (balance : ∀ counter, ∃ amount,
      next.counter counter = engine.counter counter + UInt64.ofNat amount ∧
      amount + counter.total (shard.worker.uncounted counter) +
          counter.total (engine.shards id).applied =
        counter.total ((engine.shards id).worker.uncounted counter) +
          counter.total shard.applied) : next.Tallied := by
  intro counter
  obtain ⟨amount, raised, sum⟩ := balance counter
  have uncounted := Waiting.sum_update
    (fun shard : Shard => counter.total (shard.worker.uncounted counter)) engine.shards id shard
  have applied := Waiting.sum_update
    (fun shard : Shard => counter.total shard.applied) engine.shards id shard
  rw [shards]
  exact (tallied counter).count amount raised (by omega)

/-- A turn in which every counter is let be or counts the command in the worker's hands. -/
theorem Tallied.walk (tallied : engine.Tallied) {shard : Shard}
    (shards : next.shards = Function.update engine.shards id shard)
    (applied : shard.applied = (engine.shards id).applied)
    (counts : ∀ counter,
      (next.counter counter = engine.counter counter ∧
        shard.worker.uncounted counter = (engine.shards id).worker.uncounted counter) ∨
      ∃ entry, next.counter counter =
          engine.counter counter + UInt64.ofNat (counter.weight entry) ∧
        (engine.shards id).worker.uncounted counter = [entry] ∧
        shard.worker.uncounted counter = []) : next.Tallied := by
  refine tallied.update shards (fun counter => ?_)
  rcases counts counter with ⟨same, uncounted⟩ | ⟨entry, raised, before, after⟩
  · refine ⟨0, by rw [same]; exact (UInt64.add_zero _).symm, ?_⟩
    rw [uncounted, applied, Nat.zero_add]
  · refine ⟨counter.weight entry, raised, ?_⟩
    rw [before, after, applied, WorkerCounter.total_singleton, WorkerCounter.total_nil,
      Nat.add_zero]

/-- The section under `state_mutex` applies a command that no counter has counted. -/
theorem Tallied.process (tallied : engine.Tallied) {command : PartitionedCommand}
    (popped : (engine.shards id).worker = .popped command) :
    (engine.setShard id ((engine.shards id).process config.limits command)).Tallied := by
  refine tallied.update rfl (fun counter => ⟨0, (UInt64.add_zero _).symm, ?_⟩)
  have before : (engine.shards id).worker.uncounted counter = [] :=
    WorkerPoint.uncounted_of_undelivered (by rw [popped]; rfl) counter
  rw [before, Shard.process]
  dsimp only
  split
  · have after : WorkerPoint.faulted.uncounted counter = [] :=
      WorkerPoint.uncounted_of_undelivered rfl counter
    rw [after, Nat.zero_add]
  · rw [WorkerPoint.uncounted, WorkerCounter.total_append, WorkerCounter.total_nil]
    omega

theorem Tallied.turn (tallied : engine.Tallied) (turns : engine.WorkerTurns id next) :
    next.Tallied := by
  -- a worker without an applied command in its hands has nothing to count
  have free {point : WorkerPoint} (before : (engine.shards id).worker.undelivered = [])
      (after : point.undelivered = []) (counter : WorkerCounter) :
      point.uncounted counter = (engine.shards id).worker.uncounted counter := by
    rw [WorkerPoint.uncounted_of_undelivered before, WorkerPoint.uncounted_of_undelivered after]
  cases turns with
  | stays => exact tallied
  | exits popping _ _ =>
      exact tallied.walk rfl rfl (fun counter => .inl ⟨rfl, free (by rw [popping]; rfl) rfl _⟩)
  | pops popping _ =>
      exact tallied.walk rfl rfl (fun counter => .inl ⟨rfl, free (by rw [popping]; rfl) rfl _⟩)
  | processes popped => exact tallied.process popped
  | logs recording =>
      exact tallied.walk rfl rfl (fun counter => .inl ⟨rfl, by rw [recording]; rfl⟩)
  | countsProcessed recorded =>
      refine tallied.walk rfl rfl (fun counter => ?_)
      rw [recorded]
      cases counter with
      | processed => exact .inr ⟨_, rfl, rfl, rfl⟩
      | _ => exact .inl ⟨rfl, rfl⟩
  | countsAccepted counting accepted =>
      rename_i entry
      have one : WorkerCounter.accepted.weight entry = 1 := if_pos accepted
      have none : WorkerCounter.rejected.weight entry = 0 := if_pos accepted
      refine tallied.walk rfl rfl (fun counter => ?_)
      rw [counting]
      cases counter with
      | accepted => exact .inr ⟨entry, by rw [one]; rfl, rfl, rfl⟩
      | rejected => exact .inr ⟨entry, by rw [none]; exact (UInt64.add_zero _).symm, rfl, rfl⟩
      | _ => exact .inl ⟨rfl, rfl⟩
  | countsRejected counting rejected =>
      rename_i entry
      have none : WorkerCounter.accepted.weight entry = 0 := if_neg (by simp [rejected])
      have one : WorkerCounter.rejected.weight entry = 1 := if_neg (by simp [rejected])
      refine tallied.walk rfl rfl (fun counter => ?_)
      rw [counting]
      cases counter with
      | accepted => exact .inr ⟨entry, by rw [none]; exact (UInt64.add_zero _).symm, rfl, rfl⟩
      | rejected => exact .inr ⟨entry, by rw [one]; rfl, rfl, rfl⟩
      | _ => exact .inl ⟨rfl, rfl⟩
  | countsTrades counting =>
      refine tallied.walk rfl rfl (fun counter => ?_)
      rw [counting]
      cases counter with
      | trades => exact .inr ⟨_, rfl, rfl, rfl⟩
      | _ => exact .inl ⟨rfl, rfl⟩
  | times timing =>
      refine tallied.walk rfl rfl (fun counter => ?_)
      rw [timing]
      cases counter with
      | latency => exact .inr ⟨_, rfl, rfl, rfl⟩
      | _ => exact .inl ⟨rfl, rfl⟩
  | completes completing =>
      refine tallied.walk rfl rfl (fun counter => .inl ⟨rfl, ?_⟩)
      rw [completing]
      cases counter <;> rfl
  | finishes finishing =>
      refine tallied.walk rfl rfl (fun counter => .inl ⟨rfl, ?_⟩)
      refine free (by rw [finishing]; rfl) ?_ _
      dsimp only
      split <;> rfl
  | notifies notifying =>
      exact tallied.walk rfl rfl (fun counter => .inl ⟨rfl, free (by rw [notifying]; rfl) rfl _⟩)

theorem Tallied.step (tallied : engine.Tallied) (event : PartitionedEvent config) :
    (engine.step event).Tallied := by
  rcases engine.step_sameRecords event with same | ⟨_, turns⟩
  · exact tallied.keep same
  · exact tallied.turn turns

theorem tallied_run (events : List (PartitionedEvent config)) :
    (Schedule.run step (initial config) events).Tallied :=
  Schedule.run_invariant (fun _ event known => known.step event) (tallied_initial config) events

end PartitionedEngine

/-! ### The counter of the producers -/

/-- The commands that a queue has taken and their producer has yet to count. -/
def ProducerPoint.unsubmitted : ProducerPoint → Nat
  | .inserted _ => 1
  | _ => 0

namespace PartitionedEngine

variable {config : PartitionedConfig} {engine engine' : PartitionedEngine config}

/-- `submitted_` has counted what the queues have taken but for what a producer has yet to
count. -/
def Submits (engine : PartitionedEngine config) : Prop :=
  Tally engine.submitted (∑ id, (engine.producers id).unsubmitted)
    (∑ id, (engine.shards id).inserted.length)

theorem submits_initial (config : PartitionedConfig) : (initial config).Submits :=
  ⟨0, rfl, by simp [initial, ProducerPoint.unsubmitted]⟩

/-- Steps that move no call leave `submitted_` alone. -/
theorem Submits.keep (submits : engine.Submits) (same : SameCalls engine engine')
    (submitted : engine'.submitted = engine.submitted) : engine'.Submits := by
  simp only [Submits, submitted, same.producers, same.inserted]
  exact submits

/-- A producer walks on, and `submitted_` changes by what it had yet to count. -/
theorem Submits.setProducer (submits : engine.Submits) {id : Fin config.producers}
    {point : ProducerPoint} (amount : Nat) (shards : engine'.shards = engine.shards)
    (producers : engine'.producers = engine.producers)
    (submitted : engine'.submitted = engine.submitted + UInt64.ofNat amount)
    (balance : amount + point.unsubmitted = (engine.producers id).unsubmitted) :
    (engine'.setProducer id point).Submits := by
  have sum := Waiting.sum_update ProducerPoint.unsubmitted engine.producers id point
  rw [Submits, producers_setProducer, producers]
  refine Tally.count submits amount submitted ?_
  simp only [PartitionedEngine.setProducer, shards]
  omega

theorem Submits.insert (submits : engine.Submits) {id : Fin config.producers}
    {command : PartitionedCommand} {blocking : Bool}
    (point : engine.producers id = .counted command blocking) :
    (engine.insert id command blocking).Submits := by
  unfold PartitionedEngine.insert
  dsimp only
  split
  · exact submits
  · exact submits.setProducer 0 rfl rfl (UInt64.add_zero _).symm (by rw [point]; rfl)
  · -- the queue has taken the command, and its producer has yet to count it
    rename_i shard offered
    obtain ⟨queue, _, rfl⟩ := Shard.inserts_of_offer offered
    have taken := Waiting.sum_update (fun shard : Shard => shard.inserted.length) engine.shards
      (config.shardIndex command.symbol)
      { engine.shards (config.shardIndex command.symbol) with
        queue
        inserted := (engine.shards (config.shardIndex command.symbol)).inserted ++ [command] }
    have sum := Waiting.sum_update ProducerPoint.unsubmitted engine.producers id (.inserted command)
    have before : (ProducerPoint.counted command blocking).unsubmitted = 0 := rfl
    have after : (ProducerPoint.inserted command).unsubmitted = 1 := rfl
    rw [point, before, after] at sum
    simp only [List.length_append, List.length_singleton] at taken
    refine Tally.keep submits ?_
    simp only [PartitionedEngine.setProducer, setShard]
    omega

theorem Submits.producerStep (submits : engine.Submits) (id : Fin config.producers)
    (call : PartitionedCall) : (engine.producerStep id call).Submits := by
  have zero : engine.submitted = engine.submitted + UInt64.ofNat 0 := (UInt64.add_zero _).symm
  unfold PartitionedEngine.producerStep
  cases point : engine.producers id with
  | counted command blocking => exact submits.insert point
  | inserted command => exact submits.setProducer 1 rfl rfl rfl (by rw [point]; rfl)
  | idle =>
      dsimp only
      split
      · exact submits.setProducer 0 rfl rfl zero (by rw [point]; rfl)
      · refine submits.setProducer 0 rfl rfl zero ?_
        rw [point]
        split <;> rfl
  | admitted command blocking => exact submits.setProducer 0 rfl rfl zero (by rw [point]; rfl)
  | refused command =>
      dsimp only
      split
      · exact submits.setProducer 0 rfl rfl zero (by rw [point]; rfl)
      · refine submits.setProducer 0 rfl rfl zero ?_
        rw [point]
        split <;> rfl
  | notifying command =>
      refine submits.setProducer 0 rfl rfl zero ?_
      rw [point]
      split <;> rfl
  | rejecting command => exact submits.setProducer 0 rfl rfl zero (by rw [point]; rfl)

theorem Submits.step (submits : engine.Submits) (event : PartitionedEvent config) :
    (engine.step event).Submits := by
  cases event with
  | producer id call => exact submits.producerStep id call
  | worker id =>
      refine submits.keep (engine.workerStep_sameCalls id) ?_
      have acts := engine.workerStep_acts id
      rw [PartitionedEngine.step]
      generalize engine.workerStep id = next at acts ⊢
      cases acts <;> rfl
  | waiter id =>
      refine submits.keep (engine.waiterStep_sameCalls id) ?_
      rw [PartitionedEngine.step, waiterStep]
      split
      · rfl
      · split <;> rfl
      · split <;> rfl
      · rfl
      · rfl
  | closer id =>
      refine submits.keep (engine.closerStep_sameCalls id) ?_
      rw [PartitionedEngine.step, closerStep]
      split
      · split <;> rfl
      · split <;> rfl
      · split
        · split <;> rfl
        · rfl
      · rfl
      · rfl

theorem submits_run (events : List (PartitionedEvent config)) :
    (Schedule.run step (initial config) events).Submits :=
  Schedule.run_invariant (P := Submits) (fun _ event known => known.step event)
    (submits_initial config) events

end PartitionedEngine

end Lob
