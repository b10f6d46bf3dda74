import Lob.Library.Schedule
import Lob.SPSCQueue

/-!
# The SPSC queue is a bounded lossless FIFO

The stored values form a window of the ring buffer. The producer's own copy of `head_` is
always current, since nobody else stores it, and the room it saw cannot shrink behind its
back; dually for the consumer. This is what `Producer.Agrees` and `Consumer.Agrees` say at
each point of a call, and one step of either thread keeps both, whatever the other one is
doing.
-/

namespace Lob

variable {T : Type} {capacity : PowerOfTwo}

/-! ### The queue as a window of its ring -/

namespace SPSCQueue

variable {queue : SPSCQueue T capacity}

theorem head_eq (queue : SPSCQueue T capacity) : queue.head = queue.tail + queue.size := by
  rw [size, UInt64.add_comm, UInt64.sub_add_cancel]

theorem index_head (queue : SPSCQueue T capacity) :
    capacity.index queue.head =
      Ring.slot capacity.value.toNat (queue.tail.toNat + queue.size.toNat) := by
  rw [← PowerOfTwo.index_add, ← head_eq]

theorem stored_eq_contents (queue : SPSCQueue T capacity) :
    queue.stored = Ring.contents queue.buffer queue.tail.toNat queue.size.toNat := by
  rw [stored, slots, List.map_map]
  refine List.map_congr_left (fun offset member => ?_)
  have bound : offset < 2 ^ 64 := (List.mem_range.mp member).trans queue.size.toNat_lt
  rw [Function.comp, PowerOfTwo.index_add, UInt64.toNat_ofNat', Nat.mod_eq_of_lt bound]

theorem length_stored (queue : SPSCQueue T capacity) : queue.stored.length = queue.size.toNat := by
  rw [stored_eq_contents, Ring.length_contents]

theorem size_eq_zero_iff (queue : SPSCQueue T capacity) :
    queue.size.toNat = 0 ↔ queue.tail = queue.head := by
  rw [← UInt64.toNat_zero, UInt64.toNat_inj, size, UInt64.sub_eq_iff_eq_add, UInt64.zero_add]
  exact eq_comm

/-- The slot that the producer writes holds no stored value. -/
theorem index_head_not_mem_slots (room : queue.size.toNat < capacity.value.toNat) :
    capacity.index queue.head ∉ queue.slots := by
  intro member
  obtain ⟨offset, inside, same⟩ := List.mem_map.mp member
  rw [List.mem_range] at inside
  rw [index_head, PowerOfTwo.index_add, UInt64.toNat_ofNat',
    Nat.mod_eq_of_lt (inside.trans queue.size.toNat_lt)] at same
  exact Ring.slot_ne inside room same

/-- The queue after the producer's write. -/
def writeSlot (queue : SPSCQueue T capacity) (item : T) : SPSCQueue T capacity :=
  { queue with buffer := queue.buffer.set (capacity.index queue.head) item }

theorem stored_writeSlot (room : queue.size.toNat < capacity.value.toNat) (item : T) :
    (queue.writeSlot item).stored = queue.stored := by
  rw [stored_eq_contents, stored_eq_contents]
  simp only [writeSlot, index_head]
  exact Ring.contents_set_back room queue.buffer item

theorem get_writeSlot (queue : SPSCQueue T capacity) (item : T) :
    (queue.writeSlot item).buffer.get (capacity.index queue.head) = item := by
  rw [writeSlot, Ring.get_set, if_pos rfl]

theorem get_tail_writeSlot (room : queue.size.toNat < capacity.value.toNat) (item : T)
    (nonempty : queue.tail ≠ queue.head) :
    (queue.writeSlot item).buffer.get (capacity.index queue.tail) =
      queue.buffer.get (capacity.index queue.tail) := by
  rw [writeSlot, Ring.get_set, if_neg]
  rw [index_head, PowerOfTwo.index_eq_slot]
  exact (Ring.slot_ne (Nat.pos_of_ne_zero ((size_eq_zero_iff queue).not.mpr nonempty)) room).symm

/-- The queue after the producer's store. -/
def publishHead (queue : SPSCQueue T capacity) : SPSCQueue T capacity :=
  { queue with head := queue.head + 1 }

theorem size_publishHead (room : queue.size.toNat < capacity.value.toNat) :
    queue.publishHead.size.toNat = queue.size.toNat + 1 := by
  have next : queue.publishHead.size = queue.size + 1 := by
    simp only [size, publishHead]
    grind
  have bound := capacity.value.toNat_lt
  rw [next, UInt64.toNat_add, UInt64.toNat_one, Nat.mod_eq_of_lt (by omega)]

theorem stored_publishHead (room : queue.size.toNat < capacity.value.toNat) :
    queue.publishHead.stored =
      queue.stored ++ [queue.buffer.get (capacity.index queue.head)] := by
  rw [stored_eq_contents, stored_eq_contents, size_publishHead room, index_head]
  exact Ring.contents_succ_back _ _ _

/-- The queue after the consumer's store. -/
def publishTail (queue : SPSCQueue T capacity) : SPSCQueue T capacity :=
  { queue with tail := queue.tail + 1 }

theorem size_publishTail (nonempty : queue.tail ≠ queue.head) :
    queue.publishTail.size.toNat + 1 = queue.size.toNat := by
  have next : queue.size = queue.publishTail.size + 1 := by
    simp only [size, publishTail]
    grind
  have positive : queue.size.toNat ≠ 0 := (size_eq_zero_iff queue).not.mpr nonempty
  have bound := queue.publishTail.size.toNat_lt
  rw [next, UInt64.toNat_add, UInt64.toNat_one] at positive ⊢
  omega

theorem stored_publishTail (nonempty : queue.tail ≠ queue.head) :
    queue.stored = queue.buffer.get (capacity.index queue.tail) :: queue.publishTail.stored := by
  rw [stored_eq_contents, stored_eq_contents, ← size_publishTail nonempty,
    Ring.contents_succ_front, PowerOfTwo.index_eq_slot]
  congr 1
  refine Ring.contents_congr ?_ queue.buffer _
  exact (capacity.toNat_add_mod queue.tail 1).symm

end SPSCQueue

/-! ### What the threads know -/

/-- The producer's copy of `head_` is current, and the room it saw is still there. -/
def Producer.Agrees (queue : SPSCQueue T capacity) : Producer T → Prop
  | .idle => True
  | .loadedHead _ head => head = queue.head
  | .hasSpace _ head => head = queue.head ∧ queue.size.toNat < capacity.value.toNat
  | .wroteSlot item head =>
      head = queue.head ∧ queue.size.toNat < capacity.value.toNat ∧
        queue.buffer.get (capacity.index queue.head) = item

/-- The consumer's copy of `tail_` is current, and the item it saw is still there. -/
def Consumer.Agrees (queue : SPSCQueue T capacity) : Consumer T → Prop
  | .idle => True
  | .loadedTail tail => tail = queue.tail
  | .hasItem tail => tail = queue.tail ∧ queue.tail ≠ queue.head
  | .readSlot tail out =>
      tail = queue.tail ∧ queue.tail ≠ queue.head ∧
        queue.buffer.get (capacity.index queue.tail) = out

namespace SPSCSystem

variable {system : SPSCSystem T capacity}

/-- The window fits and both threads are right about it. -/
structure Coherent (system : SPSCSystem T capacity) : Prop where
  bounded : system.queue.size.toNat ≤ capacity.value.toNat
  producer : system.producer.Agrees system.queue
  consumer : system.consumer.Agrees system.queue

/-- How a step changes the stored values, and what its outcome says about them. -/
def Accounts (system next : SPSCSystem T capacity) : Option (QueueOutcome T) → Prop
  | none => next.queue.stored = system.queue.stored
  | some (.pushed item) => next.queue.stored = system.queue.stored ++ [item]
  | some (.popped out) => system.queue.stored = out :: next.queue.stored
  | some .full => next.queue.stored = system.queue.stored ∧
      system.queue.stored.length = capacity.value.toNat
  | some .empty => next.queue.stored = system.queue.stored ∧ system.queue.stored = []

theorem Coherent.tryPushStep (coherent : system.Coherent) (item : T) :
    (system.tryPushStep item).1.Coherent ∧
      system.Accounts (system.tryPushStep item).1 (system.tryPushStep item).2 := by
  obtain ⟨queue, producer, consumer⟩ := system
  obtain ⟨bounded, agrees, other⟩ := coherent
  dsimp only at bounded agrees other
  cases producer with
  | idle => exact ⟨⟨bounded, rfl, other⟩, rfl⟩
  | loadedHead item head =>
      obtain rfl : head = queue.head := agrees
      simp only [SPSCSystem.tryPushStep]
      split
      · rename_i full
        refine ⟨⟨bounded, trivial, other⟩, rfl, ?_⟩
        rw [SPSCQueue.length_stored]
        exact Nat.le_antisymm bounded (UInt64.le_iff_toNat_le.mp full)
      · rename_i room
        exact ⟨⟨bounded, ⟨rfl, Nat.lt_of_not_le (UInt64.le_iff_toNat_le.not.mp room)⟩, other⟩, rfl⟩
  | hasSpace item head =>
      obtain ⟨rfl, room⟩ := agrees
      refine ⟨⟨bounded, ⟨rfl, room, queue.get_writeSlot item⟩, ?_⟩,
        SPSCQueue.stored_writeSlot room item⟩
      cases consumer with
      | idle => trivial
      | loadedTail tail => exact other
      | hasItem tail => exact other
      | readSlot tail out =>
          obtain ⟨rfl, nonempty, read⟩ := other
          exact ⟨rfl, nonempty, (SPSCQueue.get_tail_writeSlot room item nonempty).trans read⟩
  | wroteSlot item head =>
      obtain ⟨rfl, room, wrote⟩ := agrees
      have grown := SPSCQueue.size_publishHead room
      refine ⟨⟨?_, trivial, ?_⟩, ?_⟩
      · exact Nat.le_trans (Nat.le_of_eq grown) room
      · have nonempty : queue.publishHead.tail ≠ queue.publishHead.head := by
          rw [Ne, ← SPSCQueue.size_eq_zero_iff]
          omega
        cases consumer with
        | idle => trivial
        | loadedTail tail => exact other
        | hasItem tail => exact ⟨other.1, nonempty⟩
        | readSlot tail out => exact ⟨other.1, nonempty, other.2.2⟩
      · rw [← wrote]
        exact SPSCQueue.stored_publishHead room

theorem Coherent.tryPopStep (coherent : system.Coherent) :
    system.tryPopStep.1.Coherent ∧ system.Accounts system.tryPopStep.1 system.tryPopStep.2 := by
  obtain ⟨queue, producer, consumer⟩ := system
  obtain ⟨bounded, other, agrees⟩ := coherent
  dsimp only at bounded other agrees
  cases consumer with
  | idle => exact ⟨⟨bounded, other, rfl⟩, rfl⟩
  | loadedTail tail =>
      obtain rfl : tail = queue.tail := agrees
      simp only [SPSCSystem.tryPopStep]
      split
      · rename_i empty
        refine ⟨⟨bounded, other, trivial⟩, rfl, ?_⟩
        rw [← List.length_eq_zero_iff, SPSCQueue.length_stored, SPSCQueue.size_eq_zero_iff]
        exact empty
      · rename_i nonempty
        exact ⟨⟨bounded, other, rfl, nonempty⟩, rfl⟩
  | hasItem tail =>
      obtain ⟨rfl, nonempty⟩ := agrees
      exact ⟨⟨bounded, other, rfl, nonempty, rfl⟩, rfl⟩
  | readSlot tail out =>
      obtain ⟨rfl, nonempty, read⟩ := agrees
      have shrunk := SPSCQueue.size_publishTail nonempty
      refine ⟨⟨?_, ?_, trivial⟩, ?_⟩
      · change queue.publishTail.size.toNat ≤ _
        exact Nat.le_trans (by omega) bounded
      · have roomier : ∀ {bound : Nat}, queue.size.toNat < bound →
            queue.publishTail.size.toNat < bound := fun room => by omega
        cases producer with
        | idle => trivial
        | loadedHead item head => exact other
        | hasSpace item head => exact ⟨other.1, roomier other.2⟩
        | wroteSlot item head => exact ⟨other.1, roomier other.2.1, other.2.2⟩
      · change queue.stored = out :: queue.publishTail.stored
        rw [← read]
        exact SPSCQueue.stored_publishTail nonempty

theorem Coherent.step (coherent : system.Coherent) (event : QueueEvent T) :
    (system.step event).1.Coherent ∧
      system.Accounts (system.step event).1 (system.step event).2 := by
  cases event with
  | producer item => exact coherent.tryPushStep item
  | consumer => exact coherent.tryPopStep

end SPSCSystem

/-! ### Whole runs -/

namespace SPSCRun

/-- The queue stores what was pushed and not yet popped. -/
structure Lossless (run : SPSCRun T capacity) : Prop where
  coherent : run.system.Coherent
  pushed : run.pushed = run.popped ++ run.system.queue.stored

theorem lossless_initial (counter : UInt64) (buffer : Vector T capacity.value.toNat) :
    (initial counter buffer).Lossless := by
  have empty : (initial counter buffer).system.queue.size.toNat = 0 := by
    rw [SPSCQueue.size_eq_zero_iff]
    rfl
  refine ⟨⟨by rw [empty]; exact Nat.zero_le _, trivial, trivial⟩, ?_⟩
  have none : (initial counter buffer).system.queue.stored = [] := by
    rw [← List.length_eq_zero_iff, SPSCQueue.length_stored, empty]
  rw [none]
  rfl

theorem Lossless.step {run : SPSCRun T capacity} (lossless : run.Lossless)
    (event : QueueEvent T) : (run.step event).Lossless := by
  obtain ⟨coherent, accounts⟩ := lossless.coherent.step event
  refine ⟨coherent, ?_⟩
  rw [pushed_step, popped_step, lossless.pushed, List.append_assoc, List.append_assoc]
  congr 1
  change _ = _ ++ (run.system.step event).1.queue.stored
  generalize (run.system.step event).2 = result at accounts ⊢
  rcases result with _ | item | _ | out | _
  · exact (List.append_nil _).trans accounts.symm
  · exact accounts.symm
  · exact (List.append_nil _).trans accounts.1.symm
  · exact (List.append_nil _).trans accounts
  · exact (List.append_nil _).trans accounts.1.symm

theorem Lossless.run {start : SPSCRun T capacity} (lossless : start.Lossless)
    (events : List (QueueEvent T)) : (Schedule.run SPSCRun.step start events).Lossless :=
  Schedule.run_invariant (fun _ event known => known.step event) lossless events

theorem Lossless.unread_eq {run : SPSCRun T capacity} (lossless : run.Lossless) :
    run.unread = run.system.queue.stored := by
  rw [SPSCRun.unread, lossless.pushed, List.drop_left]

theorem Lossless.popped_prefix {run : SPSCRun T capacity} (lossless : run.Lossless) :
    run.popped <+: run.pushed := by
  rw [lossless.pushed]
  exact List.prefix_append _ _

/-- A `try_push` returns false in the middle of the call, and then the queue is full. -/
theorem Lossless.full {run : SPSCRun T capacity} (lossless : run.Lossless) {item : T}
    (failed : (run.system.step (.producer item)).2 = some .full) :
    run.system.producer ≠ .idle ∧ run.unread.length = capacity.value.toNat := by
  have accounts := (lossless.coherent.step (.producer item)).2
  rw [failed] at accounts
  rw [lossless.unread_eq]
  refine ⟨fun idle => ?_, accounts.2⟩
  simp [SPSCSystem.step, SPSCSystem.tryPushStep, idle] at failed

/-- A `try_pop` returns false in the middle of the call, and then the queue is empty. -/
theorem Lossless.empty {run : SPSCRun T capacity} (lossless : run.Lossless)
    (failed : (run.system.step .consumer).2 = some .empty) :
    run.system.consumer ≠ .idle ∧ run.unread = [] := by
  have accounts := (lossless.coherent.step .consumer).2
  rw [failed] at accounts
  rw [lossless.unread_eq]
  refine ⟨fun idle => ?_, accounts.2⟩
  simp [SPSCSystem.step, SPSCSystem.tryPopStep, idle] at failed

/-- One step of a loop that calls `try_pop`. -/
theorem Lossless.pop_cases {run : SPSCRun T capacity} (lossless : run.Lossless) :
    ((run.system.step .consumer).2 = none ∧ (run.step .consumer).popped = run.popped) ∨
    ((run.system.step .consumer).2 = some .empty ∧ (run.step .consumer).popped = run.popped ∧
      (run.step .consumer).unread = []) ∨
    ∃ out, (run.system.step .consumer).2 = some (.popped out) ∧
      (run.step .consumer).popped = run.popped ++ [out] := by
  have popped := run.popped_step .consumer
  rcases (SPSCSystem.tryPopStep_cases run.system).2 with outcome | outcome | ⟨out, outcome⟩
  · replace outcome : (run.system.step .consumer).2 = none := outcome
    rw [outcome] at popped
    exact Or.inl ⟨outcome, popped.trans (List.append_nil _)⟩
  · replace outcome : (run.system.step .consumer).2 = some .empty := outcome
    rw [outcome] at popped
    replace popped := popped.trans (List.append_nil _)
    refine Or.inr (Or.inl ⟨outcome, popped, ?_⟩)
    rw [SPSCRun.unread, run.pushed_pop, popped]
    exact (lossless.empty outcome).2
  · replace outcome : (run.system.step .consumer).2 = some (.popped out) := outcome
    rw [outcome] at popped
    exact Or.inr (Or.inr ⟨out, outcome, popped⟩)

theorem producer_pop (run : SPSCRun T capacity) :
    (run.step .consumer).system.producer = run.system.producer :=
  (SPSCSystem.tryPopStep_cases run.system).1

/-- The producer sends `all` in order, one item after the other until `try_push` takes it,
and `toSend` is what it has not pushed yet. -/
structure Sends (all toSend : List T) (run : SPSCRun T capacity) : Prop where
  lossless : run.Lossless
  sent : run.pushed ++ toSend = all
  pushing : ∀ item ∈ run.system.producer.item?, toSend.head? = some item

section Sends

variable {run : SPSCRun T capacity} {all toSend rest : List T} {item : T}

theorem sends_initial (counter : UInt64) (buffer : Vector T capacity.value.toNat) (all : List T) :
    (initial counter buffer).Sends all all where
  lossless := lossless_initial counter buffer
  sent := rfl
  pushing := fun _ idle => absurd idle (Option.not_mem_none _)

theorem Sends.push (sends : run.Sends all (item :: rest)) :
    (run.step (.producer item)).Sends all
      (if run.completesPush item then rest else item :: rest) := by
  have lossless := sends.lossless.step (.producer item)
  have sent := sends.sent
  have pushing : ∀ current ∈ run.system.producer.item?, current = item :=
    fun current member => (Option.some.inj (sends.pushing current member)).symm
  rcases push_cases pushing with ⟨completes, pushed, now⟩ | ⟨completes, pushed, now⟩
  · rw [if_pos completes]
    refine ⟨lossless, ?_, fun current member => ?_⟩
    · rw [pushed, List.append_assoc]
      exact sent
    · exact absurd (now ▸ member) (Option.not_mem_none _)
  · rw [if_neg (by rw [completes]; exact Bool.false_ne_true)]
    refine ⟨lossless, ?_, fun current member => ?_⟩
    · rw [pushed]
      exact sent
    · exact congrArg some (now current member).symm

theorem Sends.pop (sends : run.Sends all toSend) : (run.step .consumer).Sends all toSend where
  lossless := sends.lossless.step .consumer
  sent := by rw [run.pushed_pop, sends.sent]
  pushing := by
    rw [run.producer_pop]
    exact sends.pushing

/-- The producer gets more to send. -/
theorem Sends.extend (sends : run.Sends all toSend) (more : List T) :
    run.Sends (all ++ more) (toSend ++ more) where
  lossless := sends.lossless
  sent := by rw [← List.append_assoc, sends.sent]
  pushing := fun current member => by
    rw [List.head?_append, sends.pushing current member]
    rfl

theorem Sends.prefix_popped (sends : run.Sends all toSend) : run.popped <+: all := by
  rw [← sends.sent, sends.lossless.pushed, List.append_assoc]
  exact List.prefix_append _ _

/-- A queue that has been drained after everything was sent. -/
theorem Sends.popped_eq (sends : run.Sends all []) (drained : run.unread = []) :
    run.popped = run.pushed ∧ run.pushed = all := by
  have pushed := sends.lossless.pushed
  rw [← sends.lossless.unread_eq, drained, List.append_nil] at pushed
  exact ⟨pushed.symm, (List.append_nil _).symm.trans sends.sent⟩

end Sends

/-- Under every interleaving of one producer and one consumer, from any common value of the
counters, the queue is a bounded lossless FIFO: pops return a prefix of what was pushed, the
slots from `tail_` to `head_` hold the rest, the producer writes none of these slots, there
are at most `Capacity` of them, and a call that fails was under way in a state in which the
queue was full or empty. -/
theorem bounded_lossless_fifo (counter : UInt64) (buffer : Vector T capacity.value.toNat)
    (events : List (QueueEvent T)) :
    let run := Schedule.run SPSCRun.step (initial counter buffer) events
    let queue := run.system.queue
    run.popped <+: run.pushed ∧
    queue.stored = run.unread ∧
    (∀ item head, run.system.producer = .hasSpace item head →
      capacity.index head ∉ queue.slots) ∧
    queue.head - queue.tail ≤ capacity.value ∧
    (∀ item, (run.system.step (.producer item)).2 = some .full →
      run.system.producer ≠ .idle ∧ run.unread.length = capacity.value.toNat) ∧
    ((run.system.step .consumer).2 = some .empty →
      run.system.consumer ≠ .idle ∧ run.unread = []) := by
  have lossless := (lossless_initial counter buffer).run events
  refine ⟨?_, lossless.unread_eq.symm, ?_, UInt64.le_iff_toNat_le.mpr lossless.coherent.bounded,
    fun item => lossless.full, lossless.empty⟩
  · rw [lossless.pushed]
    exact List.prefix_append _ _
  · intro item head writing
    have agrees := lossless.coherent.producer
    rw [writing] at agrees
    rw [agrees.1]
    exact SPSCQueue.index_head_not_mem_slots agrees.2

end SPSCRun

end Lob
