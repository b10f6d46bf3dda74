import Lob.SPSCQueue.WeakMemory.Invariant

/-!
# Loads and slots

No load breaks the invariant, whichever store it returns. The producer writes a slot only after
it has seen the store to `tail_` that gave it back, and the consumer reads one only after it has
seen the store to `head_` that published it. So neither access races with one of the other side.
-/

namespace Lob

open ReleaseAcquire

variable {τ Q F : Type}

namespace WeakQueues

variable {layout : QueueLayout τ Q F} {start : Q → UInt64} {state next : WeakQueues layout}
  {queue : Q}
variable {location : QueueLocation Q F}

theorem keepsCounts_of_newest (later : Extends state.memory next.memory)
    (newest : next.memory.newest = state.memory.newest) (pushed : next.pushed = state.pushed)
    (popped : next.popped = state.popped) (other : Q) : KeepsCounts other state next :=
  ⟨later, by rw [newest], by rw [newest], by rw [pushed], by rw [popped]⟩

theorem keeps_of_memory (memory : next.memory = state.memory) (pushed : next.pushed = state.pushed)
    (popped : next.popped = state.popped) (other : Q) : Keeps other state next where
  toKeepsCounts := keepsCounts_of_newest (memory ▸ extends_refl _) (by rw [memory]) pushed popped _
  cells index := by rw [memory]
  accesses index := by rw [memory]

section Threads

variable [DecidableEq Q]

/-- A step that changes one queue. -/
theorem Intact.change (intact : state.Intact start) (queue : Q)
    (sound : Sound layout.owner next.memory) (raced : next.memory.raced = state.memory.raced)
    (keeps : ∀ other, other ≠ queue → Keeps other state next)
    (producers : ∀ other, other ≠ queue → next.producers other = state.producers other)
    (consumers : ∀ other, other ≠ queue → next.consumers other = state.consumers other)
    (changed : next.Holds start queue) : next.Intact start where
  sound := sound
  raceFree := raced.trans intact.raceFree
  holds other := by
    by_cases same : other = queue
    · rwa [same]
    · have holds := intact.holds other
      refine holds.keep (keeps other same) ?_ ?_
      · rw [producers other same]
        exact (keeps other same).pushing holds.pushing
      · rw [consumers other same]
        exact (keeps other same).popping holds.popping

/-- A step of a producer that keeps all queues. -/
theorem Intact.moveProducer (intact : state.Intact start) {point : Producer (layout.Item queue)}
    (sound : Sound layout.owner next.memory) (raced : next.memory.raced = state.memory.raced)
    (keeps : ∀ other, Keeps other state next)
    (producers : next.producers = Function.update state.producers queue point)
    (consumers : next.consumers = state.consumers)
    (pushing : next.Pushing start queue point) : next.Intact start := by
  have holds := intact.holds queue
  refine intact.change queue sound raced (fun other _ => keeps other)
    (fun other different => by rw [producers, Function.update_of_ne different])
    (fun _ _ => by rw [consumers]) (holds.keep (keeps queue) ?_ ?_)
  · rwa [producers, Function.update_self]
  · rw [consumers]
    exact (keeps queue).popping holds.popping

/-- A step of a consumer that keeps all queues. -/
theorem Intact.moveConsumer (intact : state.Intact start) {point : Consumer (layout.Item queue)}
    (sound : Sound layout.owner next.memory) (raced : next.memory.raced = state.memory.raced)
    (keeps : ∀ other, Keeps other state next)
    (consumers : next.consumers = Function.update state.consumers queue point)
    (producers : next.producers = state.producers)
    (popping : next.Popping start queue point) : next.Intact start := by
  have holds := intact.holds queue
  refine intact.change queue sound raced (fun other _ => keeps other)
    (fun _ _ => by rw [producers])
    (fun other different => by rw [consumers, Function.update_of_ne different])
    (holds.keep (keeps queue) ?_ ?_)
  · rw [producers]
    exact (keeps queue).pushing holds.pushing
  · rwa [consumers, Function.update_self]

end Threads

section Loads

variable [DecidableEq τ]

/-- What an acquire load of `tail_` returns to the producer. -/
theorem Intact.loadTail (intact : state.Intact start) (queue : Q) (pick : Nat) :
    let loaded := state.memory.loadAcquire (layout.producer queue) (.tail queue) pick
    ∃ n, loaded.2 = start queue + UInt64.ofNat n ∧ n ≤ (state.pushed queue).length ∧
      (state.pushed queue).length ≤ n + (layout.capacity queue).value.toNat ∧
      n ≤ (loaded.1.views (layout.producer queue)).1 (.tail queue) := by
  intro loaded
  have holds := intact.holds queue
  have counts := holds.counts
  have old := picked_le state.memory (layout.producer queue) (.tail queue) pick
  rw [counts.tails] at old
  refine ⟨state.memory.picked (layout.producer queue) (.tail queue) pick,
    counts.tailValue _ old, old.trans holds.popped_le, ?_, intact.sound.picked_le_seen _ _ _⟩
  exact counts.room.trans (Nat.add_le_add_right (intact.sound.le_picked _ _ _) _)

/-- What an acquire load of `head_` returns to the consumer. -/
theorem Intact.loadHead (intact : state.Intact start) (queue : Q) (pick : Nat) :
    let loaded := state.memory.loadAcquire (layout.consumer queue) (.head queue) pick
    ∃ n, loaded.2 = start queue + UInt64.ofNat n ∧ (state.popped queue).length ≤ n ∧
      state.seenHead queue ≤ n ∧ n ≤ (state.pushed queue).length ∧
      n ≤ (loaded.1.views (layout.consumer queue)).1 (.head queue) := by
  intro loaded
  have counts := (intact.holds queue).counts
  have old := picked_le state.memory (layout.consumer queue) (.head queue) pick
  rw [counts.heads] at old
  have least := intact.sound.le_picked (layout.consumer queue) (.head queue) pick
  exact ⟨state.memory.picked (layout.consumer queue) (.head queue) pick,
    counts.headValue _ old, counts.known.trans least, least, old,
    intact.sound.picked_le_seen _ _ _⟩

theorem keeps_loadAcquire (state : WeakQueues layout) (thread : τ) (location : QueueLocation Q F)
    (pick : Nat) (memory : next.memory = (state.memory.loadAcquire thread location pick).1)
    (pushed : next.pushed = state.pushed) (popped : next.popped = state.popped) (other : Q) :
    Keeps other state next where
  toKeepsCounts := keepsCounts_of_newest (memory ▸ extends_loadAcquire _ _ _ _)
    (by rw [memory]; rfl) pushed popped _
  cells index := by rw [memory]; rfl
  accesses index := by rw [memory]; rfl

theorem Intact.look (intact : state.Intact start) (thread : τ) (location : QueueLocation Q F)
    (pick : Nat) : (state.look thread location pick).1.Intact start where
  sound := intact.sound.loadAcquire thread location pick
  raceFree := intact.raceFree
  holds other := by
    have holds := intact.holds other
    have keeps : Keeps other state (state.look thread location pick).1 := by
      refine keeps_loadAcquire state thread location pick ?_ ?_ ?_ other <;> rfl
    exact holds.keep keeps (keeps.pushing holds.pushing) (keeps.popping holds.popping)

end Loads

variable [DecidableEq τ] [DecidableEq Q]

/-- The producer has loaded from the memory and goes on at another point. -/
theorem Intact.loadProducer (intact : state.Intact start) {pick : Nat}
    {point : Producer (layout.Item queue)}
    (memory : next.memory = (state.memory.loadAcquire (layout.producer queue) location pick).1)
    (producers : next.producers = Function.update state.producers queue point)
    (consumers : next.consumers = state.consumers) (pushed : next.pushed = state.pushed)
    (popped : next.popped = state.popped) (pushing : next.Pushing start queue point) :
    next.Intact start :=
  intact.moveProducer (memory ▸ intact.sound.loadAcquire _ location pick) (by rw [memory]; rfl)
    (keeps_loadAcquire state _ location pick memory pushed popped) producers consumers pushing

theorem Intact.loadConsumer (intact : state.Intact start) {pick : Nat}
    {point : Consumer (layout.Item queue)}
    (memory : next.memory = (state.memory.loadAcquire (layout.consumer queue) location pick).1)
    (consumers : next.consumers = Function.update state.consumers queue point)
    (producers : next.producers = state.producers) (pushed : next.pushed = state.pushed)
    (popped : next.popped = state.popped) (popping : next.Popping start queue point) :
    next.Intact start :=
  intact.moveConsumer (memory ▸ intact.sound.loadAcquire _ location pick) (by rw [memory]; rfl)
    (keeps_loadAcquire state _ location pick memory pushed popped) consumers producers popping

/-! ### Slots -/

section Slots

variable {thread : τ} {cell : layout.Cell} {value : layout.Item cell.1} {isWrite : Bool}

theorem keeps_write (memory : next.memory = state.memory.write thread cell value)
    (pushed : next.pushed = state.pushed) (popped : next.popped = state.popped) {other : Q}
    (elsewhere : other ≠ cell.1) : Keeps other state next where
  toKeepsCounts := keepsCounts_of_newest (memory ▸ extends_write _ _ _ _) (by rw [memory]; rfl)
    pushed popped other
  cells index := by
    rw [memory]
    exact Function.update_of_ne (cell_ne elsewhere index) _ _
  accesses index := by
    rw [memory]
    exact accesses_access_of_ne _ _ _ (cell_ne elsewhere index)

theorem keeps_access (memory : next.memory = state.memory.access thread cell isWrite)
    (pushed : next.pushed = state.pushed) (popped : next.popped = state.popped) {other : Q}
    (elsewhere : other ≠ cell.1) : Keeps other state next where
  toKeepsCounts := keepsCounts_of_newest (memory ▸ extends_access _ _ _ _) (by rw [memory]; rfl)
    pushed popped other
  cells index := by rw [memory]; rfl
  accesses index := by
    rw [memory]
    exact accesses_access_of_ne _ _ _ (cell_ne elsewhere index)

end Slots

/-- All reads of the slot behind the items have happened before the producer writes it. -/
theorem Holds.raced_write (holds : state.Holds start queue)
    (sound : Sound layout.owner state.memory)
    (space : (state.pushed queue).length <
      state.seenTail queue + (layout.capacity queue).value.toNat) (item : layout.Item queue) :
    (state.memory.write (layout.producer queue)
      (slot layout start queue (state.pushed queue).length) item).raced = state.memory.raced := by
  have fewer := holds.counts.seenTail_le sound
  refine raced_access (fun access member _ foreign => ?_)
  rcases holds.slots.accessed _ access member with mine | ⟨reader, _⟩
  · exact absurd mine foreign
  · have known := holds.slots.vacated _ le_rfl (by omega) access member reader
    have vacated : (state.pushed queue).length + 1 - (layout.capacity queue).value.toNat ≤
        (state.memory.views (layout.producer queue)).1 (.tail queue) := by
      rw [seenTail] at space
      omega
    rw [reader]
    exact known.trans ((sound.taken vacated).2 _)

theorem Holds.slots_write (holds : state.Holds start queue)
    (sound : Sound layout.owner state.memory)
    (space : (state.pushed queue).length <
      state.seenTail queue + (layout.capacity queue).value.toNat) {item : layout.Item queue}
    (memory : next.memory = state.memory.write (layout.producer queue)
      (slot layout start queue (state.pushed queue).length) item)
    (pushed : next.pushed = state.pushed) (popped : next.popped = state.popped) :
    next.Slots start queue := by
  have slots := holds.slots
  have fewer := holds.counts.seenTail_le sound
  have message : next.memory.message = state.memory.message := by rw [memory]; rfl
  have gained {cell : layout.Cell} {access : Access τ}
      (member : access ∈ next.memory.accesses cell) :
      access ∈ state.memory.accesses cell ∨ access.thread = layout.producer queue := by
    rw [memory] at member
    exact (mem_accesses_access member).imp_right (fun new => new.2.1)
  refine ⟨?_, ?_, ?_, ?_⟩
  · rw [pushed, popped, memory]
    intro n unread less
    rw [slots.stored n unread less]
    exact congrArg some (Function.update_of_ne (slot_ne less (by omega)) _ _).symm
  · rw [pushed, popped, message, memory]
    intro n unread less access member writer
    have other : slot layout start queue n ≠ slot layout start queue (state.pushed queue).length :=
      slot_ne less (by omega)
    refine slots.written n unread less access ?_ writer
    rwa [← accesses_access_of_ne state.memory (layout.producer queue) true other]
  · rw [pushed, popped, message]
    intro n free less access member reader
    rcases gained member with before | mine
    · exact slots.vacated n free less access before reader
    · exact absurd (mine.symm.trans reader) (layout.apart queue)
  · intro index access member
    rcases gained member with before | mine
    · exact slots.accessed index access before
    · exact .inl mine

/-- The producer writes the slot behind the items. -/
theorem Intact.writeSlot (intact : state.Intact start) {item : layout.Item queue} {head : UInt64}
    (here : state.producers queue = .hasSpace item head)
    (memory : next.memory =
      state.memory.write (layout.producer queue) (layout.cell queue head) item)
    (producers : next.producers = Function.update state.producers queue (.wroteSlot item head))
    (consumers : next.consumers = state.consumers) (pushed : next.pushed = state.pushed)
    (popped : next.popped = state.popped) : next.Intact start := by
  have holds := intact.holds queue
  have pushing := holds.pushing
  rw [here] at pushing
  obtain ⟨rfl, space⟩ := pushing
  have keeps := keepsCounts_of_newest (memory ▸ extends_write _ _ _ _) (by rw [memory]; rfl)
    pushed popped queue
  refine intact.change queue (memory ▸ intact.sound.write _ _ _) ?_
    (fun _ different => keeps_write memory pushed popped different) (fun other different => ?_)
    (fun _ _ => by rw [consumers]) ⟨holds.counts.keep keeps,
      holds.slots_write intact.sound space memory pushed popped, ?_, ?_, ?_⟩
  · rw [memory]
    exact holds.raced_write intact.sound space item
  · rw [producers, Function.update_of_ne different]
  · rw [pushed, popped]
    exact holds.fifo
  · rw [producers, Function.update_self, Pushing, pushed]
    refine ⟨rfl, space.trans_le (Nat.add_le_add_right (seenTail_mono keeps.later queue) _), ?_⟩
    rw [memory]
    exact Function.update_self _ _ _
  · rw [consumers]
    exact keeps.popping holds.popping

/-- All writes to the slot of the next item have happened before the consumer reads it. -/
theorem Holds.raced_read (holds : state.Holds start queue)
    (sound : Sound layout.owner state.memory)
    (item : (state.popped queue).length < state.seenHead queue) :
    (state.memory.access (layout.consumer queue)
      (slot layout start queue (state.popped queue).length) false).raced =
      state.memory.raced := by
  have more := holds.counts.seenHead_le sound
  refine raced_access (fun access member _ foreign => ?_)
  rcases holds.slots.accessed _ access member with writer | ⟨mine, _⟩
  · have known := holds.slots.written _ le_rfl (item.trans_le more) access member writer
    rw [writer]
    exact known.trans ((sound.taken item).2 _)
  · exact absurd mine foreign

theorem Holds.slots_read (holds : state.Holds start queue)
    (sound : Sound layout.owner state.memory)
    (item : (state.popped queue).length < state.seenHead queue)
    (memory : next.memory = state.memory.access (layout.consumer queue)
      (slot layout start queue (state.popped queue).length) false)
    (pushed : next.pushed = state.pushed) (popped : next.popped = state.popped) :
    next.Slots start queue := by
  have slots := holds.slots
  have more := holds.counts.seenHead_le sound
  have message : next.memory.message = state.memory.message := by rw [memory]; rfl
  have gained {cell : layout.Cell} {access : Access τ}
      (member : access ∈ next.memory.accesses cell) :
      access ∈ state.memory.accesses cell ∨
        access.thread = layout.consumer queue ∧ access.isWrite = false := by
    rw [memory] at member
    exact (mem_accesses_access member).imp_right (fun new => new.2)
  refine ⟨?_, ?_, ?_, ?_⟩
  · rw [pushed, popped, memory]
    exact slots.stored
  · rw [pushed, popped, message]
    intro n unread less access member writer
    rcases gained member with before | ⟨mine, _⟩
    · exact slots.written n unread less access before writer
    · exact absurd (writer.symm.trans mine) (layout.apart queue)
  · rw [pushed, popped, message, memory]
    intro n free less
    rw [accesses_access_of_ne _ _ _ (slot_ne (by omega) less).symm]
    exact slots.vacated n free less
  · intro index access member
    rcases gained member with before | mine
    · exact slots.accessed index access before
    · exact .inr mine

/-- The consumer reads the slot of the next item. -/
theorem Intact.readSlot (intact : state.Intact start) {tail : UInt64}
    (here : state.consumers queue = .hasItem tail)
    (memory : next.memory =
      state.memory.access (layout.consumer queue) (layout.cell queue tail) false)
    (consumers : next.consumers = Function.update state.consumers queue
      (.readSlot tail (state.memory.cells (layout.cell queue tail))))
    (producers : next.producers = state.producers) (pushed : next.pushed = state.pushed)
    (popped : next.popped = state.popped) : next.Intact start := by
  have holds := intact.holds queue
  have popping := holds.popping
  rw [here] at popping
  obtain ⟨rfl, item⟩ := popping
  have keeps := keepsCounts_of_newest (memory ▸ extends_access _ _ _ _) (by rw [memory]; rfl)
    pushed popped queue
  have more := holds.counts.seenHead_le intact.sound
  refine intact.change queue (memory ▸ intact.sound.access _ _ _) ?_
    (fun _ different => keeps_access memory pushed popped different)
    (fun _ _ => by rw [producers]) (fun other different => ?_)
    ⟨holds.counts.keep keeps, holds.slots_read intact.sound item memory pushed popped, ?_, ?_, ?_⟩
  · rw [memory]
    exact holds.raced_read intact.sound item
  · rw [consumers, Function.update_of_ne different]
  · rw [pushed, popped]
    exact holds.fifo
  · rw [producers]
    exact holds.pushing.keep keeps.later keeps.pushed (fun index => by rw [memory]; rfl)
  · rw [consumers, Function.update_self]
    refine ⟨by rw [popped], ?_, ?_⟩
    · rw [popped]
      exact item.trans_le (seenHead_mono keeps.later queue)
    · rw [pushed, popped]
      exact holds.slots.stored _ le_rfl (item.trans_le more)

end WeakQueues

end Lob
