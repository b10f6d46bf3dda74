import Lob.Library.ReleaseAcquire
import Lob.SPSCQueue

/-!
# The queue under release and acquire

`Lob.SPSCQueue` takes every access to shared memory at its current value. Here the accesses have
the memory orders of the source: a thread loads its own counter relaxed and the counter of the
other side with acquire, stores its own counter with release, and reads and writes the slots
without any order. A load may return an old store, and two accesses to a slot that are not
ordered are a data race.

The threads share several queues and flags, each queue with its own producer and its own
consumer.
-/

namespace Lob

open ReleaseAcquire

/-- Queues and flags in a memory that threads share. -/
structure QueueLayout (τ Q F : Type) where
  Item : Q → Type
  capacity : Q → PowerOfTwo
  producer : Q → τ
  consumer : Q → τ
  apart : ∀ queue, producer queue ≠ consumer queue
  /-- the thread that stores to a flag -/
  setter : F → τ

/-- The atomic members. -/
inductive QueueLocation (Q F : Type) where
  | head (queue : Q)
  | tail (queue : Q)
  | flag (name : F)
  deriving DecidableEq

variable {τ Q F : Type}

namespace QueueLayout

variable (layout : QueueLayout τ Q F)

/-- A slot of `buffer_`. -/
abbrev Cell : Type := (queue : Q) × Fin (layout.capacity queue).value.toNat

abbrev Memory : Type :=
  ReleaseAcquire.Memory τ (QueueLocation Q F) UInt64 (fun cell : layout.Cell => layout.Item cell.1)

def owner : QueueLocation Q F → τ
  | .head queue => layout.producer queue
  | .tail queue => layout.consumer queue
  | .flag name => layout.setter name

/-- `buffer_[index(counter)]`. -/
def cell (queue : Q) (counter : UInt64) : layout.Cell :=
  ⟨queue, (layout.capacity queue).index counter⟩

end QueueLayout

/-- The memory, the threads in the middle of their calls, and what they have handed over. -/
structure WeakQueues (layout : QueueLayout τ Q F) where
  memory : layout.Memory
  producers : (queue : Q) → Producer (layout.Item queue) := fun _ => .idle
  consumers : (queue : Q) → Consumer (layout.Item queue) := fun _ => .idle
  pushed : (queue : Q) → List (layout.Item queue) := fun _ => []
  popped : (queue : Q) → List (layout.Item queue) := fun _ => []

namespace WeakQueues

variable {layout : QueueLayout τ Q F}

/-- Empty queues at arbitrary counters; all flags are zero. -/
def initial (layout : QueueLayout τ Q F) (start : Q → UInt64)
    (buffers : (cell : layout.Cell) → layout.Item cell.1) : WeakQueues layout where
  memory := .initial (fun
    | .head queue => start queue
    | .tail queue => start queue
    | .flag _ => 0) buffers

variable [DecidableEq τ] [DecidableEq Q] [DecidableEq F]

def setProducer (state : WeakQueues layout) (queue : Q) (point : Producer (layout.Item queue)) :
    WeakQueues layout :=
  { state with producers := Function.update state.producers queue point }

def setConsumer (state : WeakQueues layout) (queue : Q) (point : Consumer (layout.Item queue)) :
    WeakQueues layout :=
  { state with consumers := Function.update state.consumers queue point }

/-- The next step of `try_push`, and what the call did if it returns with this step. -/
def tryPushStep (state : WeakQueues layout) (queue : Q) (item : layout.Item queue) (pick : Nat) :
    WeakQueues layout × Option (QueueOutcome (layout.Item queue)) :=
  let thread := layout.producer queue
  match state.producers queue with
  | .idle =>
      let (memory, head) := state.memory.loadRelaxed thread (.head queue) pick
      ({ state with memory }.setProducer queue (.loadedHead item head), none)
  | .loadedHead item head =>
      let (memory, tail) := state.memory.loadAcquire thread (.tail queue) pick
      if head - tail ≥ (layout.capacity queue).value then
        ({ state with memory }.setProducer queue .idle, some .full)
      else ({ state with memory }.setProducer queue (.hasSpace item head), none)
  | .hasSpace item head =>
      let memory := state.memory.write thread (layout.cell queue head) item
      ({ state with memory }.setProducer queue (.wroteSlot item head), none)
  | .wroteSlot item head =>
      let memory := state.memory.storeRelease thread (.head queue) (head + 1)
      let pushed := Function.update state.pushed queue (state.pushed queue ++ [item])
      ({ state with memory, pushed }.setProducer queue .idle, some (.pushed item))

/-- The next step of `try_pop`. -/
def tryPopStep (state : WeakQueues layout) (queue : Q) (pick : Nat) :
    WeakQueues layout × Option (QueueOutcome (layout.Item queue)) :=
  let thread := layout.consumer queue
  match state.consumers queue with
  | .idle =>
      let (memory, tail) := state.memory.loadRelaxed thread (.tail queue) pick
      ({ state with memory }.setConsumer queue (.loadedTail tail), none)
  | .loadedTail tail =>
      let (memory, head) := state.memory.loadAcquire thread (.head queue) pick
      if tail = head then ({ state with memory }.setConsumer queue .idle, some .empty)
      else ({ state with memory }.setConsumer queue (.hasItem tail), none)
  | .hasItem tail =>
      let (memory, out) := state.memory.read thread (layout.cell queue tail)
      ({ state with memory }.setConsumer queue (.readSlot tail out), none)
  | .readSlot tail out =>
      let memory := state.memory.storeRelease thread (.tail queue) (tail + 1)
      let popped := Function.update state.popped queue (state.popped queue ++ [out])
      ({ state with memory, popped }.setConsumer queue .idle, some (.popped out))

/-- An acquire load outside of `try_push` and `try_pop`: of a flag, or in `empty` or `size`. -/
def look (state : WeakQueues layout) (thread : τ) (location : QueueLocation Q F) (pick : Nat) :
    WeakQueues layout × UInt64 :=
  let (memory, value) := state.memory.loadAcquire thread location pick
  ({ state with memory }, value)

/-- A release store to a flag. -/
def setFlag (state : WeakQueues layout) (name : F) (value : UInt64) : WeakQueues layout :=
  { state with memory := state.memory.storeRelease (layout.setter name) (.flag name) value }

end WeakQueues

/-- Whose step is next; `pick` chooses the store that a load returns. -/
inductive WeakQueueEvent (layout : QueueLayout τ Q F) where
  | push (queue : Q) (item : layout.Item queue) (pick : Nat)
  | pop (queue : Q) (pick : Nat)
  | look (thread : τ) (location : QueueLocation Q F) (pick : Nat)
  | setFlag (name : F) (value : UInt64)

def WeakQueues.step [DecidableEq τ] [DecidableEq Q] [DecidableEq F] {layout : QueueLayout τ Q F}
    (state : WeakQueues layout) : WeakQueueEvent layout → WeakQueues layout
  | .push queue item pick => (state.tryPushStep queue item pick).1
  | .pop queue pick => (state.tryPopStep queue pick).1
  | .look thread location pick => (state.look thread location pick).1
  | .setFlag name value => state.setFlag name value

end Lob
