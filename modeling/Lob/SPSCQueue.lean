import Lob.Library.Ring
import Mathlib.Algebra.Order.Group.Nat

/-!
# The single-producer single-consumer queue

`SPSCQueue` with one producer and one consumer in the middle of their calls. Each access
to shared memory is one step: `try_push` loads `head_`, loads `tail_`, writes a slot and
stores `head_`; `try_pop` loads `tail_`, loads `head_`, reads a slot and stores `tail_`. A
thread keeps what it has loaded until its call returns, so it may act on a stale counter.

The counters are 64-bit and wrap. `static_assert` makes the capacity a power of two, so a
mask maps a counter to its slot. The assertion also admits zero, the capacity of a queue
that never takes an item; it is left out here.
-/

namespace Lob

/-- `class SPSCQueue`. -/
structure SPSCQueue (T : Type) (capacity : PowerOfTwo) where
  head : UInt64
  tail : UInt64
  buffer : Vector T capacity.value.toNat

namespace SPSCQueue

variable {T : Type} {capacity : PowerOfTwo}

/-- `SPSCQueue::size`, with both loads in one state. -/
def size (queue : SPSCQueue T capacity) : UInt64 := queue.head - queue.tail

/-- The slots from `tail_` to `head_`. -/
def slots (queue : SPSCQueue T capacity) : List (Fin capacity.value.toNat) :=
  (List.range queue.size.toNat).map
    (fun offset => capacity.index (queue.tail + UInt64.ofNat offset))

/-- The values in the slots from `tail_` to `head_`. -/
def stored (queue : SPSCQueue T capacity) : List T := queue.slots.map queue.buffer.get

end SPSCQueue

/-! ### The capacities of `shared_types.hpp` -/

/-- `kOrderQueueCapacity`. -/
def kOrderQueueCapacity : PowerOfTwo where
  value := 65536
  powerOfTwo := by decide
  positive := by decide

/-- `kTradeQueueCapacity`. -/
def kTradeQueueCapacity : PowerOfTwo where
  value := 65536
  powerOfTwo := by decide
  positive := by decide

/-- `kReportQueueCapacity`. -/
def kReportQueueCapacity : PowerOfTwo where
  value := 65536
  powerOfTwo := by decide
  positive := by decide

/-! ### Testing for emptiness -/

/-- Where a thread is in its call of `empty`. -/
inductive EmptyTest where
  | start
  | loadedHead (head : UInt64)
  | loadedTail (tail : UInt64)
  deriving DecidableEq, Repr

/-- The next step of `SPSCQueue::empty`, and the answer if the call returns with it. The
operands of a comparison may be evaluated in either order. -/
def SPSCQueue.emptyStep {T : Type} {capacity : PowerOfTwo} (queue : SPSCQueue T capacity)
    (headFirst : Bool) : EmptyTest → EmptyTest × Option Bool
  | .start => (if headFirst then .loadedHead queue.head else .loadedTail queue.tail, none)
  | .loadedHead head => (.start, some (decide (head = queue.tail)))
  | .loadedTail tail => (.start, some (decide (queue.head = tail)))

/-! ### The two threads -/

/-- Where the producer is in its call of `try_push`. -/
inductive Producer (T : Type) where
  | idle
  | loadedHead (item : T) (head : UInt64)
  /-- `tail_` was loaded and there is room. -/
  | hasSpace (item : T) (head : UInt64)
  | wroteSlot (item : T) (head : UInt64)
  deriving DecidableEq, Repr

/-- The item of the `try_push` that is under way. -/
def Producer.item? {T : Type} : Producer T → Option T
  | .idle => none
  | .loadedHead item _ => some item
  | .hasSpace item _ => some item
  | .wroteSlot item _ => some item

/-- Where the consumer is in its call of `try_pop`. -/
inductive Consumer (T : Type) where
  | idle
  | loadedTail (tail : UInt64)
  /-- `head_` was loaded and there is an item. -/
  | hasItem (tail : UInt64)
  | readSlot (tail : UInt64) (out : T)
  deriving DecidableEq, Repr

/-- What a call that has returned did. -/
inductive QueueOutcome (T : Type) where
  | pushed (item : T)
  | full
  | popped (out : T)
  | empty
  deriving DecidableEq, Repr

/-- The value that a call pushed. -/
@[simp] def QueueOutcome.pushed? {T : Type} : QueueOutcome T → Option T
  | .pushed item => some item
  | .full => none
  | .popped _ => none
  | .empty => none

/-- The value that a call returned. -/
@[simp] def QueueOutcome.popped? {T : Type} : QueueOutcome T → Option T
  | .pushed _ => none
  | .full => none
  | .popped out => some out
  | .empty => none

/-- Whose step is next; an idle producer calls `try_push` with the given item. -/
inductive QueueEvent (T : Type) where
  | producer (item : T)
  | consumer
  deriving DecidableEq, Repr

/-- The queue and its two threads. -/
structure SPSCSystem (T : Type) (capacity : PowerOfTwo) where
  queue : SPSCQueue T capacity
  producer : Producer T := .idle
  consumer : Consumer T := .idle

namespace SPSCSystem

variable {T : Type} {capacity : PowerOfTwo}

/-- The next step of `try_push`, and what the call did if it returns with this step. -/
def tryPushStep (system : SPSCSystem T capacity) (item : T) :
    SPSCSystem T capacity × Option (QueueOutcome T) :=
  let queue := system.queue
  match system.producer with
  | .idle => ({ system with producer := .loadedHead item queue.head }, none)
  | .loadedHead item head =>
      let tail := queue.tail
      if head - tail ≥ capacity.value then ({ system with producer := .idle }, some .full)
      else ({ system with producer := .hasSpace item head }, none)
  | .hasSpace item head =>
      ({ system with
        queue := { queue with buffer := queue.buffer.set (capacity.index head) item }
        producer := .wroteSlot item head }, none)
  | .wroteSlot item head =>
      ({ system with queue := { queue with head := head + 1 }, producer := .idle },
        some (.pushed item))

/-- The next step of `try_pop`. -/
def tryPopStep (system : SPSCSystem T capacity) :
    SPSCSystem T capacity × Option (QueueOutcome T) :=
  let queue := system.queue
  match system.consumer with
  | .idle => ({ system with consumer := .loadedTail queue.tail }, none)
  | .loadedTail tail =>
      let head := queue.head
      if tail = head then ({ system with consumer := .idle }, some .empty)
      else ({ system with consumer := .hasItem tail }, none)
  | .hasItem tail =>
      ({ system with consumer := .readSlot tail (queue.buffer.get (capacity.index tail)) }, none)
  | .readSlot tail out =>
      ({ system with queue := { queue with tail := tail + 1 }, consumer := .idle },
        some (.popped out))

def step (system : SPSCSystem T capacity) :
    QueueEvent T → SPSCSystem T capacity × Option (QueueOutcome T)
  | .producer item => system.tryPushStep item
  | .consumer => system.tryPopStep

/-- A step of a producer that is pushing `item`, or about to. -/
theorem tryPushStep_cases {system : SPSCSystem T capacity} {item : T}
    (pushing : ∀ current ∈ system.producer.item?, current = item) :
    ((system.tryPushStep item).2 = none ∧
        (system.tryPushStep item).1.producer.item? = some item) ∨
      ((system.tryPushStep item).2 = some .full ∧
        (system.tryPushStep item).1.producer.item? = none) ∨
      ((system.tryPushStep item).2 = some (.pushed item) ∧
        (system.tryPushStep item).1.producer.item? = none) := by
  obtain ⟨queue, producer, consumer⟩ := system
  cases producer with
  | idle => exact Or.inl ⟨rfl, rfl⟩
  | loadedHead current head =>
      obtain rfl := pushing current rfl
      simp only [tryPushStep]
      split
      · exact Or.inr (Or.inl ⟨rfl, rfl⟩)
      · exact Or.inl ⟨rfl, rfl⟩
  | hasSpace current head =>
      obtain rfl := pushing current rfl
      exact Or.inl ⟨rfl, rfl⟩
  | wroteSlot current head =>
      obtain rfl := pushing current rfl
      exact Or.inr (Or.inr ⟨rfl, rfl⟩)

theorem tryPopStep_cases (system : SPSCSystem T capacity) :
    system.tryPopStep.1.producer = system.producer ∧
      (system.tryPopStep.2 = none ∨ system.tryPopStep.2 = some .empty ∨
        ∃ out, system.tryPopStep.2 = some (.popped out)) := by
  obtain ⟨queue, producer, consumer⟩ := system
  cases consumer with
  | idle => exact ⟨rfl, Or.inl rfl⟩
  | loadedTail tail =>
      simp only [tryPopStep]
      split
      · exact ⟨rfl, Or.inr (Or.inl rfl)⟩
      · exact ⟨rfl, Or.inl rfl⟩
  | hasItem tail => exact ⟨rfl, Or.inl rfl⟩
  | readSlot tail out => exact ⟨rfl, Or.inr (Or.inr ⟨out, rfl⟩)⟩

end SPSCSystem

/-- A run so far: where it is, and what its calls did. -/
structure SPSCRun (T : Type) (capacity : PowerOfTwo) where
  system : SPSCSystem T capacity
  history : List (QueueOutcome T) := []

namespace SPSCRun

variable {T : Type} {capacity : PowerOfTwo}

/-- Both counters have the given value, and no call is under way. -/
def initial (counter : UInt64) (buffer : Vector T capacity.value.toNat) : SPSCRun T capacity where
  system := { queue := { head := counter, tail := counter, buffer } }

def step (run : SPSCRun T capacity) (event : QueueEvent T) : SPSCRun T capacity :=
  let (system, outcome) := run.system.step event
  { system, history := run.history ++ outcome.toList }

/-- The values that were pushed. -/
def pushed (run : SPSCRun T capacity) : List T := run.history.filterMap QueueOutcome.pushed?

/-- The values that pops returned. -/
def popped (run : SPSCRun T capacity) : List T := run.history.filterMap QueueOutcome.popped?

theorem pushed_step (run : SPSCRun T capacity) (event : QueueEvent T) :
    (run.step event).pushed =
      run.pushed ++ (run.system.step event).2.toList.filterMap QueueOutcome.pushed? :=
  List.filterMap_append

theorem popped_step (run : SPSCRun T capacity) (event : QueueEvent T) :
    (run.step event).popped =
      run.popped ++ (run.system.step event).2.toList.filterMap QueueOutcome.popped? :=
  List.filterMap_append

/-- A step of the producer pops nothing. -/
theorem popped_push (run : SPSCRun T capacity) (item : T) :
    (run.step (.producer item)).popped = run.popped := by
  have nothing : (run.system.tryPushStep item).2.toList.filterMap QueueOutcome.popped? = [] := by
    unfold SPSCSystem.tryPushStep
    dsimp only
    split
    · rfl
    · split <;> rfl
    · rfl
    · rfl
  rw [popped_step, SPSCSystem.step, nothing, List.append_nil]

/-- A step of the consumer pushes nothing. -/
theorem pushed_pop (run : SPSCRun T capacity) : (run.step .consumer).pushed = run.pushed := by
  have nothing : run.system.tryPopStep.2.toList.filterMap QueueOutcome.pushed? = [] := by
    unfold SPSCSystem.tryPopStep
    dsimp only
    split
    · rfl
    · split <;> rfl
    · rfl
    · rfl
  rw [pushed_step, SPSCSystem.step, nothing, List.append_nil]

/-- The next step of a producer that is pushing `item` lets its `try_push` return true. -/
def completesPush (run : SPSCRun T capacity) (item : T) : Bool :=
  ((run.system.step (.producer item)).2.bind QueueOutcome.pushed?).isSome

/-- One step of a loop that calls `try_push` with `item` until it returns true. -/
theorem push_cases {run : SPSCRun T capacity} {item : T}
    (pushing : ∀ current ∈ run.system.producer.item?, current = item) :
    (run.completesPush item = true ∧
      (run.step (.producer item)).pushed = run.pushed ++ [item] ∧
      (run.step (.producer item)).system.producer.item? = none) ∨
    (run.completesPush item = false ∧ (run.step (.producer item)).pushed = run.pushed ∧
      ∀ current ∈ (run.step (.producer item)).system.producer.item?, current = item) := by
  have pushed := run.pushed_step (.producer item)
  change _ = _ ++ (run.system.tryPushStep item).2.toList.filterMap _ at pushed
  change (((run.system.tryPushStep item).2.bind _).isSome = true ∧ _ ∧
      (run.system.tryPushStep item).1.producer.item? = none) ∨
    (((run.system.tryPushStep item).2.bind _).isSome = false ∧ _ ∧
      ∀ current ∈ (run.system.tryPushStep item).1.producer.item?, current = item)
  rcases SPSCSystem.tryPushStep_cases pushing with ⟨outcome, now⟩ | ⟨outcome, now⟩ | ⟨outcome, now⟩
  · rw [outcome] at pushed ⊢
    refine Or.inr ⟨rfl, pushed.trans (List.append_nil _), fun current member => ?_⟩
    rw [now] at member
    exact (Option.some.inj member).symm
  · rw [outcome] at pushed ⊢
    refine Or.inr ⟨rfl, pushed.trans (List.append_nil _), fun current member => ?_⟩
    rw [now] at member
    exact absurd member (Option.not_mem_none _)
  · rw [outcome] at pushed ⊢
    exact Or.inl ⟨rfl, pushed, now⟩

/-- The values that no pop has returned yet. -/
def unread (run : SPSCRun T capacity) : List T := run.pushed.drop run.popped.length

end SPSCRun

end Lob
