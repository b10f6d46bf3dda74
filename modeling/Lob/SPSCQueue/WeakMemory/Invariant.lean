import Lob.SPSCQueue.WeakMemory
import Mathlib.Data.Nat.ModEq

/-!
# What holds of every queue

The stores to the counters are numbered like the items: store `n + 1` to `head_` publishes item
`n`, and store `n + 1` to `tail_` gives its slot back. The oldest store to the other counter that
a thread may still read therefore bounds what it may rely on. Whoever has seen the store that
hands a slot over knows of the accesses to the slot before.

A step of one queue leaves what holds of the others alone.
-/

namespace Lob

open ReleaseAcquire

variable {τ Q F : Type}

/-! ### Counters -/

section Counters

variable (capacity : PowerOfTwo) (start : UInt64) {n m : Nat}

theorem counter_slot (n : Nat) :
    (start + UInt64.ofNat n).toNat % capacity.value.toNat =
      (start.toNat + n) % capacity.value.toNat := by
  obtain ⟨exponent, same, bound⟩ := capacity.exists_two_pow
  rw [capacity.toNat_add_mod, UInt64.toNat_ofNat', same, Nat.add_mod,
    Nat.mod_mod_of_dvd _ (Nat.pow_dvd_pow 2 bound), ← Nat.add_mod]

/-- The slots of a window that fits into the buffer are distinct. -/
theorem index_counter_ne (less : n < m) (near : m < n + capacity.value.toNat) :
    capacity.index (start + UInt64.ofNat n) ≠ capacity.index (start + UInt64.ofNat m) := by
  rw [capacity.index_eq_slot, capacity.index_eq_slot]
  intro same
  have congruent := congrArg Fin.val same
  simp only [Ring.slot, counter_slot] at congruent
  have distance : (m - n) % capacity.value.toNat = 0 := by
    have aligned : start.toNat + n + (m - n) ≡ start.toNat + n + 0 [MOD capacity.value.toNat] := by
      rw [show start.toNat + n + (m - n) = start.toNat + m by omega]
      exact congruent.symm
    exact Nat.ModEq.add_left_cancel' (start.toNat + n) aligned
  rw [Nat.mod_eq_of_lt (by omega)] at distance
  omega

theorem counter_sub (le : m ≤ n) :
    start + UInt64.ofNat n - (start + UInt64.ofNat m) = UInt64.ofNat (n - m) := by
  obtain ⟨distance, rfl⟩ := Nat.exists_eq_add_of_le le
  rw [Nat.add_sub_cancel_left, UInt64.ofNat_add, ← UInt64.add_assoc, UInt64.add_comm _ (.ofNat _)]
  exact UInt64.add_sub_cancel _ _

theorem counter_succ (n : Nat) :
    start + UInt64.ofNat n + 1 = start + UInt64.ofNat (n + 1) := by
  rw [UInt64.ofNat_add, UInt64.add_assoc]
  rfl

/-- The test of `try_push` passes only if there is room behind the items that are left. -/
theorem lt_of_counter_sub_lt (le : m ≤ n) (bounded : n ≤ m + capacity.value.toNat)
    (space : start + UInt64.ofNat n - (start + UInt64.ofNat m) < capacity.value) :
    n < m + capacity.value.toNat := by
  have small := capacity.value.toNat_lt
  rw [counter_sub start le, UInt64.lt_iff_toNat_lt, UInt64.toNat_ofNat',
    Nat.mod_eq_of_lt (by omega)] at space
  omega

end Counters

/-! ### The invariant -/

namespace WeakQueues

variable {layout : QueueLayout τ Q F}

section Invariant

variable (start : Q → UInt64) (state : WeakQueues layout) (queue : Q)

/-- The slot of the item with this number. -/
def slot (layout : QueueLayout τ Q F) (start : Q → UInt64) (queue : Q) (n : Nat) : layout.Cell :=
  layout.cell queue (start queue + UInt64.ofNat n)

/-- The number of the oldest store to `tail_` that the producer may still read. -/
def seenTail : Nat := (state.memory.views (layout.producer queue)).1 (.tail queue)

/-- The number of the oldest store to `head_` that the consumer may still read. -/
def seenHead : Nat := (state.memory.views (layout.consumer queue)).1 (.head queue)

def Pushing : Producer (layout.Item queue) → Prop
  | .idle => True
  | .loadedHead _ head => head = start queue + UInt64.ofNat (state.pushed queue).length
  | .hasSpace _ head =>
      head = start queue + UInt64.ofNat (state.pushed queue).length ∧
        (state.pushed queue).length < state.seenTail queue + (layout.capacity queue).value.toNat
  | .wroteSlot item head =>
      head = start queue + UInt64.ofNat (state.pushed queue).length ∧
        (state.pushed queue).length < state.seenTail queue + (layout.capacity queue).value.toNat ∧
        state.memory.cells (slot layout start queue (state.pushed queue).length) = item

def Popping : Consumer (layout.Item queue) → Prop
  | .idle => True
  | .loadedTail tail => tail = start queue + UInt64.ofNat (state.popped queue).length
  | .hasItem tail =>
      tail = start queue + UInt64.ofNat (state.popped queue).length ∧
        (state.popped queue).length < state.seenHead queue
  | .readSlot tail out =>
      tail = start queue + UInt64.ofNat (state.popped queue).length ∧
        (state.popped queue).length < state.seenHead queue ∧
        (state.pushed queue)[(state.popped queue).length]? = some out

/-- The stores to the two counters, and what the two sides know of each other. -/
structure Counts : Prop where
  heads : state.memory.newest (.head queue) = (state.pushed queue).length
  tails : state.memory.newest (.tail queue) = (state.popped queue).length
  headValue : ∀ n ≤ (state.pushed queue).length,
    (state.memory.message (.head queue) n).value = start queue + UInt64.ofNat n
  tailValue : ∀ n ≤ (state.popped queue).length,
    (state.memory.message (.tail queue) n).value = start queue + UInt64.ofNat n
  room : (state.pushed queue).length ≤
    state.seenTail queue + (layout.capacity queue).value.toNat
  known : (state.popped queue).length ≤ state.seenHead queue

/-- What is in the slots, and after which store an access to a slot is known. -/
structure Slots : Prop where
  /-- the items that are not popped yet -/
  stored : ∀ n, (state.popped queue).length ≤ n → n < (state.pushed queue).length →
    (state.pushed queue)[n]? = some (state.memory.cells (slot layout start queue n))
  /-- whoever has seen an item published knows of all writes to its slot -/
  written : ∀ n, (state.popped queue).length ≤ n → n < (state.pushed queue).length →
    ∀ access ∈ state.memory.accesses (slot layout start queue n),
      access.thread = layout.producer queue →
        access.stamp ≤
          (state.memory.message (.head queue) (n + 1)).view.2 (layout.producer queue)
  /-- whoever has seen a slot vacated knows of all reads of it -/
  vacated : ∀ n, (state.pushed queue).length ≤ n →
    n < (state.popped queue).length + (layout.capacity queue).value.toNat →
    ∀ access ∈ state.memory.accesses (slot layout start queue n),
      access.thread = layout.consumer queue →
        access.stamp ≤ (state.memory.message (.tail queue)
          (n + 1 - (layout.capacity queue).value.toNat)).view.2 (layout.consumer queue)
  accessed : ∀ index, ∀ access ∈ state.memory.accesses ⟨queue, index⟩,
    access.thread = layout.producer queue ∨
      access.thread = layout.consumer queue ∧ access.isWrite = false

structure Holds : Prop where
  counts : state.Counts start queue
  slots : state.Slots start queue
  fifo : state.popped queue <+: state.pushed queue
  pushing : state.Pushing start queue (state.producers queue)
  popping : state.Popping start queue (state.consumers queue)

end Invariant

/-- All that holds in every reachable state. -/
structure Intact (start : Q → UInt64) (state : WeakQueues layout) : Prop where
  sound : Sound layout.owner state.memory
  raceFree : state.memory.raced = false
  holds : ∀ queue, state.Holds start queue

variable {start : Q → UInt64} {state next : WeakQueues layout} {queue : Q}

theorem slot_ne {n m : Nat} (less : n < m)
    (near : m < n + (layout.capacity queue).value.toNat) :
    slot layout start queue n ≠ slot layout start queue m := by
  intro same
  exact index_counter_ne (layout.capacity queue) (start queue) less near
    (eq_of_heq (Sigma.mk.inj same).2)

/-- The queues that a slot does not belong to. -/
theorem cell_ne {cell : layout.Cell} {other : Q} (elsewhere : other ≠ cell.1)
    (index : Fin (layout.capacity other).value.toNat) : (⟨other, index⟩ : layout.Cell) ≠ cell :=
  fun same => elsewhere (congrArg Sigma.fst same)

theorem Holds.popped_le (holds : state.Holds start queue) :
    (state.popped queue).length ≤ (state.pushed queue).length := holds.fifo.length_le

theorem Counts.seenTail_le (counts : state.Counts start queue)
    (sound : Sound layout.owner state.memory) :
    state.seenTail queue ≤ (state.popped queue).length := by
  rw [← counts.tails]
  exact (sound.closed _).seen _

theorem Counts.seenHead_le (counts : state.Counts start queue)
    (sound : Sound layout.owner state.memory) :
    state.seenHead queue ≤ (state.pushed queue).length := by
  rw [← counts.heads]
  exact (sound.closed _).seen _

/-- No queue holds more than its capacity. -/
theorem Counts.bounded (counts : state.Counts start queue)
    (sound : Sound layout.owner state.memory) :
    (state.pushed queue).length ≤
      (state.popped queue).length + (layout.capacity queue).value.toNat :=
  counts.room.trans (Nat.add_le_add_right (counts.seenTail_le sound) _)

theorem intact_initial (layout : QueueLayout τ Q F) (start : Q → UInt64)
    (buffers : (cell : layout.Cell) → layout.Item cell.1) :
    (initial layout start buffers).Intact start where
  sound := sound_initial _ _ _
  raceFree := rfl
  holds queue :=
    { counts :=
        { heads := rfl
          tails := rfl
          headValue := fun n oldest => by
            obtain rfl := Nat.le_zero.mp oldest
            exact (UInt64.add_zero _).symm
          tailValue := fun n oldest => by
            obtain rfl := Nat.le_zero.mp oldest
            exact (UInt64.add_zero _).symm
          room := Nat.zero_le _
          known := Nat.zero_le _ }
      slots :=
        { stored := fun n _ less => absurd less (Nat.not_lt_zero n)
          written := fun n _ less => absurd less (Nat.not_lt_zero n)
          vacated := fun _ _ _ _ member => absurd member List.not_mem_nil
          accessed := fun _ _ member => absurd member List.not_mem_nil }
      fifo := List.prefix_rfl
      pushing := trivial
      popping := trivial }

/-! ### Steps that leave a queue alone -/

/-- The step leaves the stores to the counters and the items of a queue as they are. -/
structure KeepsCounts (queue : Q) (state next : WeakQueues layout) : Prop where
  later : Extends state.memory next.memory
  heads : next.memory.newest (.head queue) = state.memory.newest (.head queue)
  tails : next.memory.newest (.tail queue) = state.memory.newest (.tail queue)
  pushed : next.pushed queue = state.pushed queue
  popped : next.popped queue = state.popped queue

/-- The step also leaves the slots alone. -/
structure Keeps (queue : Q) (state next : WeakQueues layout) : Prop
    extends KeepsCounts queue state next where
  cells : ∀ index, next.memory.cells ⟨queue, index⟩ = state.memory.cells ⟨queue, index⟩
  accesses : ∀ index, next.memory.accesses ⟨queue, index⟩ = state.memory.accesses ⟨queue, index⟩

theorem seenTail_mono (later : Extends state.memory next.memory) (queue : Q) :
    state.seenTail queue ≤ next.seenTail queue := (later.views _).1 _

theorem seenHead_mono (later : Extends state.memory next.memory) (queue : Q) :
    state.seenHead queue ≤ next.seenHead queue := (later.views _).1 _

theorem Counts.keep (counts : state.Counts start queue) (keeps : KeepsCounts queue state next) :
    next.Counts start queue where
  heads := by rw [keeps.heads, keeps.pushed, counts.heads]
  tails := by rw [keeps.tails, keeps.popped, counts.tails]
  headValue n old := by
    rw [keeps.pushed] at old
    rw [keeps.later.message _ n (by rwa [counts.heads]), counts.headValue n old]
  tailValue n old := by
    rw [keeps.popped] at old
    rw [keeps.later.message _ n (by rwa [counts.tails]), counts.tailValue n old]
  room := by
    rw [keeps.pushed]
    exact counts.room.trans (Nat.add_le_add_right (seenTail_mono keeps.later queue) _)
  known := by
    rw [keeps.popped]
    exact counts.known.trans (seenHead_mono keeps.later queue)

theorem Slots.keep (slots : state.Slots start queue) (counts : state.Counts start queue)
    (keeps : Keeps queue state next) : next.Slots start queue where
  stored n := by
    rw [keeps.pushed, keeps.popped]
    intro unread less
    exact (slots.stored n unread less).trans (congrArg some (keeps.cells _).symm)
  written n := by
    rw [keeps.pushed, keeps.popped, slot, QueueLayout.cell, keeps.accesses]
    intro unread less
    rw [keeps.later.message _ _ (by rw [counts.heads]; omega)]
    exact slots.written n unread less
  vacated n := by
    rw [keeps.pushed, keeps.popped, slot, QueueLayout.cell, keeps.accesses]
    intro free less
    rw [keeps.later.message _ _ (by rw [counts.tails]; omega)]
    exact slots.vacated n free less
  accessed index := by
    rw [keeps.accesses]
    exact slots.accessed index

theorem Pushing.keep {point : Producer (layout.Item queue)}
    (pushing : state.Pushing start queue point) (later : Extends state.memory next.memory)
    (pushed : next.pushed queue = state.pushed queue)
    (cells : ∀ index, next.memory.cells ⟨queue, index⟩ = state.memory.cells ⟨queue, index⟩) :
    next.Pushing start queue point := by
  have grown := seenTail_mono later queue
  cases point with
  | idle => trivial
  | loadedHead item head =>
      rw [Pushing, pushed]
      exact pushing
  | hasSpace item head =>
      rw [Pushing, pushed]
      exact ⟨pushing.1, pushing.2.trans_le (Nat.add_le_add_right grown _)⟩
  | wroteSlot item head =>
      rw [Pushing, pushed]
      exact ⟨pushing.1, pushing.2.1.trans_le (Nat.add_le_add_right grown _),
        (cells _).trans pushing.2.2⟩

theorem Popping.keep {point : Consumer (layout.Item queue)}
    (popping : state.Popping start queue point) (later : Extends state.memory next.memory)
    (pushed : state.pushed queue <+: next.pushed queue)
    (popped : next.popped queue = state.popped queue) : next.Popping start queue point := by
  have grown := seenHead_mono later queue
  cases point with
  | idle => trivial
  | loadedTail tail =>
      rw [Popping, popped]
      exact popping
  | hasItem tail =>
      rw [Popping, popped]
      exact ⟨popping.1, popping.2.trans_le grown⟩
  | readSlot tail out =>
      rw [Popping, popped]
      obtain ⟨more, same⟩ := pushed
      obtain ⟨inside, _⟩ := List.getElem?_eq_some_iff.mp popping.2.2
      refine ⟨popping.1, popping.2.1.trans_le grown, ?_⟩
      rw [← same, List.getElem?_append_left inside]
      exact popping.2.2

theorem Keeps.pushing (keeps : Keeps queue state next) {point : Producer (layout.Item queue)}
    (pushing : state.Pushing start queue point) : next.Pushing start queue point :=
  pushing.keep keeps.later keeps.pushed keeps.cells

theorem KeepsCounts.popping (keeps : KeepsCounts queue state next)
    {point : Consumer (layout.Item queue)} (popping : state.Popping start queue point) :
    next.Popping start queue point :=
  popping.keep keeps.later (keeps.pushed ▸ List.prefix_refl _) keeps.popped

/-- A step that at most moves the threads of a queue to other points. -/
theorem Holds.keep (holds : state.Holds start queue) (keeps : Keeps queue state next)
    (pushing : next.Pushing start queue (next.producers queue))
    (popping : next.Popping start queue (next.consumers queue)) : next.Holds start queue where
  counts := holds.counts.keep keeps.toKeepsCounts
  slots := holds.slots.keep holds.counts keeps
  fifo := by
    rw [keeps.popped, keeps.pushed]
    exact holds.fifo
  pushing := pushing
  popping := popping

end WeakQueues

end Lob
