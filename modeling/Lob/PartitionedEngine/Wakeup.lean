import Lob.PartitionedEngine.Pending

/-!
# Wakeups of `waitUntilIdle`

The thread that brings `pending_` to zero calls `notify_all` without holding `idle_mutex_`.
A thread in `waitUntilIdle` tests its predicate and blocks in two steps. If the predicate was
false and `notify_all` runs between the two, nobody is blocked yet: the notification is lost,
and the thread then blocks although nothing is pending.

`NotifiesAwake` excludes this one order of steps. In every run without it, a thread that is
asleep while nothing is pending has a notification still ahead of it.
-/

namespace Lob

/-- The predicate was false and no wakeup has come since. -/
@[simp] def WaiterPoint.asleep : WaiterPoint → Bool
  | .sleeping => true
  | .blocked => true
  | _ => false

/-- About to call `notify_all`. -/
@[simp] def ProducerPoint.isNotifying : ProducerPoint → Bool
  | .notifying _ => true
  | _ => false

/-- About to call `notify_all` or to change `pending_`. -/
@[simp] def ProducerPoint.signals : ProducerPoint → Bool
  | .admitted _ _ => true
  | .refused _ => true
  | .notifying _ => true
  | _ => false

@[simp] def WorkerPoint.signals : WorkerPoint → Bool
  | .finishing => true
  | .notifying => true
  | _ => false

namespace PartitionedEngine

variable {config : PartitionedConfig} {engine : PartitionedEngine config} {id : config.ShardId}

/-- Some thread is about to call `notify_all` or to change `pending_`. -/
def Signals (engine : PartitionedEngine config) : Prop :=
  (∃ id, (engine.producers id).signals = true) ∨ (∃ id, (engine.shards id).worker.signals = true) ∨
    ∃ id, engine.closers id = .notifying

instance (engine : PartitionedEngine config) : Decidable engine.Signals := by
  unfold Signals
  infer_instance

/-- The step is a call of `notify_all`. -/
def notifies (engine : PartitionedEngine config) : PartitionedEvent config → Bool
  | .producer id _ => (engine.producers id).isNotifying
  | .worker id => (engine.shards id).worker = .notifying
  | .waiter _ => false
  | .closer id => engine.closers id = .notifying

/-- `notify_all` is not called while a thread is between its predicate and its block. -/
def NotifiesAwake (engine : PartitionedEngine config) (event : PartitionedEvent config) : Prop :=
  engine.notifies event = true → ∀ id, engine.waiters id ≠ .sleeping

instance (engine : PartitionedEngine config) (event : PartitionedEvent config) :
    Decidable (engine.NotifiesAwake event) := by
  unfold NotifiesAwake
  infer_instance

/-! ### What a sleeping thread can rely on -/

/-- Some producer or worker is about to call `notify_all`. -/
def Notifier (engine : PartitionedEngine config) : Prop :=
  (∃ id, (engine.producers id).isNotifying = true) ∨ ∃ id, (engine.shards id).worker = .notifying

/-- A thread that sleeps while nothing is pending will be notified. -/
def Heard (engine : PartitionedEngine config) : Prop :=
  (∃ id, (engine.waiters id).asleep = true) → engine.pending = 0 → engine.Notifier

theorem Notifier.setProducer (notifier : engine.Notifier) {id : Fin config.producers}
    (other : (engine.producers id).isNotifying = false) (point : ProducerPoint) :
    (engine.setProducer id point).Notifier := by
  refine notifier.imp_left (fun some => ?_)
  rw [producers_setProducer]
  exact Waiting.exists_update_of_exists (p := fun point => ProducerPoint.isNotifying point = true)
    (fun notifying => absurd (other.symm.trans notifying) Bool.false_ne_true) some

theorem Notifier.setShard (notifier : engine.Notifier) {shard : Shard}
    (other : (engine.shards id).worker = .notifying → shard.worker = .notifying) :
    (engine.setShard id shard).Notifier := by
  refine notifier.imp_right (fun some => ?_)
  rw [shards_setShard]
  exact Waiting.exists_update_of_exists (p := fun shard => Shard.worker shard = .notifying) other
    some

/-- A step that wakes nobody, leaves `pending_` alone and keeps the notifiers. -/
theorem Heard.keep {engine engine' : PartitionedEngine config} (heard : engine.Heard)
    (waiters : engine'.waiters = engine.waiters) (pending : engine'.pending = engine.pending)
    (notifier : engine.Notifier → engine'.Notifier) : engine'.Heard := by
  unfold Heard
  rw [waiters, pending]
  exact fun asleep idle => notifier (heard asleep idle)

theorem heard_of_pending (busy : engine.pending ≠ 0) :
    engine.Heard := fun _ idle => absurd idle busy

/-- `notify_all` leaves nobody asleep. -/
theorem heard_of_notifyAll {engine engine' : PartitionedEngine config}
    (awake : ∀ id, engine.waiters id ≠ .sleeping)
    (waiters : engine'.waiters = engine.notifyAll.waiters) : engine'.Heard := by
  rintro ⟨id, asleep⟩
  rw [waiters] at asleep
  simp only [notifyAll] at asleep
  have notSleeping := awake id
  cases point : engine.waiters id <;> simp_all

theorem Heard.producerStep (heard : engine.Heard) (counts : engine.Counts)
    {id : Fin config.producers} {call : PartitionedCall}
    (awake : engine.NotifiesAwake (.producer id call)) : (engine.producerStep id call).Heard := by
  have nonneg : 0 ≤ engine.pending := by
    rw [show engine.pending = engine.inFlight from counts]
    exact Int.natCast_nonneg _
  unfold PartitionedEngine.producerStep
  cases point : engine.producers id with
  | idle =>
      have other : (engine.producers id).isNotifying = false := by rw [point]; rfl
      dsimp only
      split
      · exact heard.keep rfl rfl (fun notifier => notifier.setProducer other _)
      · exact heard.keep rfl rfl (fun notifier => notifier.setProducer other _)
  | admitted command blocking => exact heard_of_pending (by change engine.pending + 1 ≠ 0; omega)
  | counted command blocking =>
      have other : (engine.producers id).isNotifying = false := by rw [point]; rfl
      simp only [insert]
      split
      · exact heard
      · exact heard.keep rfl rfl (fun notifier => notifier.setProducer other _)
      · rename_i shard offered
        obtain ⟨queue, _, rfl⟩ := Shard.inserts_of_offer offered
        refine heard.keep rfl rfl (fun notifier => ?_)
        apply Notifier.setProducer
        · exact notifier.setShard (fun notifying => notifying)
        · exact other
  | inserted command =>
      have other : (engine.producers id).isNotifying = false := by rw [point]; rfl
      exact heard.keep rfl rfl (fun notifier => notifier.setProducer other _)
  | refused command =>
      dsimp only
      split
      · -- the producer itself will notify
        exact fun _ _ => Or.inl ⟨id, by simp [PartitionedEngine.setProducer]⟩
      · exact heard_of_pending (by change engine.pending - 1 ≠ 0; omega)
  | notifying command =>
      exact heard_of_notifyAll (awake (by simp [notifies, point])) rfl
  | rejecting command =>
      have other : (engine.producers id).isNotifying = false := by rw [point]; rfl
      exact heard.keep rfl rfl (fun notifier => notifier.setProducer other _)

theorem Heard.setWorker {engine engine' : PartitionedEngine config} (heard : engine.Heard)
    (other : (engine.shards id).worker ≠ .notifying) (waiters : engine'.waiters = engine.waiters)
    (pending : engine'.pending = engine.pending) (shards : engine'.shards = engine.shards)
    (producers : engine'.producers = engine.producers) (point : WorkerPoint) :
    (engine'.setWorker id point).Heard := by
  refine heard.keep waiters pending (fun notifier => ?_)
  have same : engine'.Notifier := by
    rw [Notifier, shards, producers]
    exact notifier
  refine same.setShard (fun notifying => ?_)
  rw [shards] at notifying
  exact absurd notifying other

theorem Heard.workerStep (heard : engine.Heard) (awake : engine.NotifiesAwake (.worker id)) :
    (engine.workerStep id).Heard := by
  -- a worker that is not about to notify takes no notifier away
  have setShard : (engine.shards id).worker ≠ .notifying → ∀ shard,
      (engine.setShard id shard).Heard := fun other shard =>
    heard.keep rfl rfl (fun notifier => notifier.setShard (fun same => absurd same other))
  have acts := engine.workerStep_acts id
  generalize engine.workerStep id = next at acts ⊢
  cases acts with
  | stays => exact heard
  | exits popping _ _ => exact setShard (by rw [popping]; exact WorkerPoint.noConfusion) _
  | pops popping _ => exact setShard (by rw [popping]; exact WorkerPoint.noConfusion) _
  | processes popped => exact setShard (by rw [popped]; exact WorkerPoint.noConfusion) _
  | records before _ =>
      refine heard.setWorker (fun notifying => ?_) rfl rfl rfl rfl _
      rw [notifying] at before
      contradiction
  | completes completing => exact setShard (by rw [completing]; exact WorkerPoint.noConfusion) _
  | finishes finishing =>
      by_cases last : engine.pending = 1
      · -- the worker itself will notify
        rw [if_pos last]
        exact fun _ _ => Or.inr ⟨id, by simp⟩
      · exact heard_of_pending (by change engine.pending - 1 ≠ 0; omega)
  | notifies notifying => exact heard_of_notifyAll (awake (by simp [notifies, notifying])) rfl

/-- A thread in `waitUntilIdle` walks on; it only falls asleep while something is pending. -/
theorem Heard.setWaiter {engine engine' : PartitionedEngine config} (heard : engine.Heard)
    {id : Fin config.waiters} {point : WaiterPoint} (waiters : engine'.waiters = engine.waiters)
    (pending : engine'.pending = engine.pending)
    (notifier : engine.Notifier → engine'.Notifier)
    (asleep : point.asleep = true → (engine.waiters id).asleep = true ∨ engine.pending ≠ 0) :
    (engine'.setWaiter id point).Heard := by
  intro some idle
  replace idle : engine.pending = 0 := pending.symm.trans idle
  refine notifier (heard ?_ idle)
  rw [waiters_setWaiter, waiters] at some
  exact Waiting.exists_of_exists_update (p := fun point => WaiterPoint.asleep point = true)
    (fun sleeps => (asleep sleeps).resolve_right (fun busy => busy idle)) some

theorem Heard.waiterStep (heard : engine.Heard) (id : Fin config.waiters) :
    (engine.waiterStep id).Heard := by
  unfold PartitionedEngine.waiterStep
  have awake : ∀ {goal : Prop}, false = true → goal := fun impossible =>
    absurd impossible Bool.false_ne_true
  cases point : engine.waiters id with
  | outside => exact heard.setWaiter rfl rfl (fun same => same) awake
  | locking =>
      dsimp only
      split
      · exact heard
      · exact heard.setWaiter rfl rfl (fun same => same) awake
  | checking =>
      dsimp only
      split
      · exact heard.setWaiter rfl rfl (fun same => same) awake
      · rename_i busy
        exact heard.setWaiter rfl rfl (fun same => same) (fun _ => Or.inr busy)
  | sleeping =>
      exact heard.setWaiter rfl rfl (fun same => same) (fun _ => Or.inl (by rw [point]; rfl))
  | blocked => exact heard.setWaiter rfl rfl (fun same => same) awake

theorem Heard.closerStep (heard : engine.Heard) {id : Fin config.closers}
    (awake : engine.NotifiesAwake (.closer id)) :
    (engine.closerStep id).Heard := by
  unfold PartitionedEngine.closerStep
  cases point : engine.closers id with
  | outside =>
      dsimp only
      split <;> exact heard
  | closing index =>
      dsimp only
      split
      · exact heard.keep rfl rfl (fun notifier => Notifier.setShard notifier (fun same => same))
      · exact heard
  | joining index =>
      dsimp only
      split
      · split <;> exact heard
      · exact heard
  | notifying => exact heard_of_notifyAll (awake (by simp [notifies, point])) rfl
  | finished => exact heard

theorem Heard.step (heard : engine.Heard) (counts : engine.Counts) {event : PartitionedEvent config}
    (awake : engine.NotifiesAwake event) : (engine.step event).Heard := by
  cases event with
  | producer id call => exact heard.producerStep counts awake
  | worker id => exact heard.workerStep awake
  | waiter id => exact heard.waiterStep id
  | closer id => exact heard.closerStep awake

/-! ### Lost and found -/

/-- In every run in which `notify_all` is never called while a thread is between its predicate
and its block, a thread that is blocked while nothing is pending has a signal ahead of it. -/
theorem no_lost_wakeup (config : PartitionedConfig) {events : List (PartitionedEvent config)}
    (awake : Schedule.Respects step NotifiesAwake (initial config) events)
    (id : Fin config.waiters) :
    let engine := Schedule.run step (initial config) events
    engine.waiters id = .blocked → engine.pending = 0 → engine.Signals := by
  intro engine blocked idle
  have known : engine.Counts ∧ engine.Heard := by
    refine Schedule.run_invariant_of_respects
      (P := fun engine : PartitionedEngine config => engine.Counts ∧ engine.Heard)
      (fun state event known allowed => ⟨known.1.step event, known.2.step known.1 allowed⟩)
      ⟨counts_initial config, ?_⟩ awake
    rintro ⟨id, asleep⟩
    exact absurd asleep Bool.false_ne_true
  rcases known.2 ⟨id, by rw [blocked]; rfl⟩ idle with ⟨producer, notifying⟩ | ⟨worker, notifying⟩
  · refine Or.inl ⟨producer, ?_⟩
    cases point : engine.producers producer <;> simp_all
  · exact Or.inr (Or.inl ⟨worker, by rw [notifying]; rfl⟩)

/-- One shard, one producer and one thread in `waitUntilIdle`. -/
def smallConfig : PartitionedConfig where
  shardCount := ⟨1, by decide, by decide⟩
  queueCapacity := 1
  queuePositive := by decide
  producers := 1
  waiters := 1
  closers := 0

namespace SmallRun

def waiter : Fin smallConfig.waiters := ⟨0, by decide⟩

/-- The steps of the producer, which enqueues a cancel, of the worker and of the waiter. -/
def produce : PartitionedEvent smallConfig :=
  .producer ⟨0, by decide⟩ (.enqueueCancel ⟨#v[76, 79, 66, 0, 0, 0, 0, 0]⟩ 1)

def work : PartitionedEvent smallConfig := .worker ⟨0, by decide⟩

def wait : PartitionedEvent smallConfig := .waiter waiter

end SmallRun

open SmallRun in
/-- The waiter blocks, then the worker finishes the last command. -/
theorem no_lost_wakeup_blocked_first :
    let events := List.replicate 4 produce ++ [work] ++ List.replicate 4 wait ++
      List.replicate 7 work
    let engine := Schedule.run step (initial smallConfig) events
    Schedule.Respects step NotifiesAwake (initial smallConfig) events ∧
      engine.waiters waiter = .blocked ∧ engine.pending = 0 ∧ engine.Signals := by
  intro events engine
  have awake : Schedule.Respects step NotifiesAwake (initial smallConfig) events := by
    decide +kernel
  have blocked : engine.waiters waiter = .blocked := by decide +kernel
  have idle : engine.pending = 0 := by decide +kernel
  exact ⟨awake, blocked, idle, no_lost_wakeup smallConfig awake waiter blocked idle⟩

open SmallRun in
/-- The waiter finds its predicate false, the worker finishes the last command and notifies
nobody, and then the waiter blocks. Nothing is pending, and no thread is about to notify or
to change `pending_`. -/
theorem lost_wakeup :
    let events := List.replicate 4 produce ++ [work] ++ List.replicate 3 wait ++
      List.replicate 8 work ++ [wait]
    let engine := Schedule.run step (initial smallConfig) events
    engine.waiters waiter = .blocked ∧ engine.pending = 0 ∧ ¬engine.Signals := by
  decide +kernel

/-- The excluded step loses the wakeup from whatever state it is taken in. -/
theorem blocked_of_not_notifiesAwake {event : PartitionedEvent config}
    (early : ¬engine.NotifiesAwake event) :
    ∃ id, (Schedule.run step engine [event, .waiter id]).waiters id = .blocked ∧
      (Schedule.run step engine [event, .waiter id]).pending = engine.pending := by
  simp only [NotifiesAwake, Classical.not_imp, not_forall, not_not] at early
  obtain ⟨notifies, id, sleeping⟩ := early
  have stays : engine.notifyAll.waiters id = .sleeping := by simp [notifyAll, sleeping]
  have missed : (engine.step event).waiters id = .sleeping ∧
      (engine.step event).pending = engine.pending := by
    cases event with
    | producer producer call =>
        cases point : engine.producers producer with
        | notifying command =>
            simp only [step, producerStep, point]
            exact ⟨stays, rfl⟩
        | _ => simp [PartitionedEngine.notifies, point] at notifies
    | worker worker =>
        have point : (engine.shards worker).worker = .notifying := by
          simpa [PartitionedEngine.notifies] using notifies
        simp only [step, workerStep, point]
        exact ⟨stays, rfl⟩
    | waiter other => exact absurd notifies Bool.false_ne_true
    | closer closer =>
        have point : engine.closers closer = .notifying := by
          simpa [PartitionedEngine.notifies] using notifies
        simp only [step, closerStep, point]
        exact ⟨stays, rfl⟩
  have blocks : ∀ next : PartitionedEngine config, next.waiters id = .sleeping →
      (next.waiterStep id).waiters id = .blocked ∧ (next.waiterStep id).pending = next.pending := by
    intro next asleep
    simp only [waiterStep, asleep, waiters_setWaiter, Function.update_self]
    exact ⟨trivial, rfl⟩
  obtain ⟨blocked, pending⟩ := blocks (engine.step event) missed.1
  exact ⟨id, blocked, pending.trans missed.2⟩

end PartitionedEngine

end Lob
