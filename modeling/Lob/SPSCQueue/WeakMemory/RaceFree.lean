import Lob.Library.Schedule
import Lob.SPSCQueue.WeakMemory.Slots
import Mathlib.Data.List.Infix

/-!
# No races, and first in first out

Every step of `try_push` and `try_pop` keeps the invariant, whichever store its load returns. So
no slot is ever accessed in a race, and every queue hands its items over once and in their order.
-/

namespace Lob

open ReleaseAcquire

variable {τ Q F : Type}

namespace WeakQueues

variable {layout : QueueLayout τ Q F} {start : Q → UInt64} {state next : WeakQueues layout}
  {queue : Q}
variable {location : QueueLocation Q F}

/-! ### Publishing -/

variable [DecidableEq τ] [DecidableEq Q] [DecidableEq F]

/-- A store to a location that does not belong to the queue. -/
theorem Intact.keeps_storeRelease (intact : state.Intact start) (location : QueueLocation Q F)
    (value : UInt64) {other : Q} (notHead : .head other ≠ location)
    (notTail : .tail other ≠ location)
    (memory : next.memory = state.memory.storeRelease (layout.owner location) location value)
    (pushed : next.pushed other = state.pushed other)
    (popped : next.popped other = state.popped other) : Keeps other state next where
  later := memory ▸ intact.sound.extends_storeRelease location value
  heads := by rw [memory, storeRelease_newest_of_ne _ _ _ _ notHead]
  tails := by rw [memory, storeRelease_newest_of_ne _ _ _ _ notTail]
  cells index := by rw [memory]; rfl
  accesses index := by rw [memory]; rfl
  pushed := pushed
  popped := popped

theorem Intact.setFlag (intact : state.Intact start) (name : F) (value : UInt64) :
    (state.setFlag name value).Intact start where
  sound := intact.sound.storeRelease (.flag name) value
  raceFree := intact.raceFree
  holds other := by
    have holds := intact.holds other
    have keeps : Keeps other state (state.setFlag name value) :=
      intact.keeps_storeRelease (.flag name) value nofun nofun rfl rfl rfl
    exact holds.keep keeps (keeps.pushing holds.pushing) (keeps.popping holds.popping)

/-- The store that publishes a counter releases all that its thread knows. -/
theorem message_storeRelease {thread : τ} {value : UInt64}
    (memory : next.memory = state.memory.storeRelease thread location value) {n : Nat}
    (newest : state.memory.newest location = n) :
    next.memory.message location (n + 1) = ⟨value, next.memory.views thread⟩ := by
  rw [memory, ← newest]
  exact storeRelease_message_newest _ _ _ _

section Head

variable {item : layout.Item queue}
  (memory : next.memory = state.memory.storeRelease (layout.producer queue) (.head queue)
    (start queue + UInt64.ofNat (state.pushed queue).length + 1))
  (pushed : next.pushed queue = state.pushed queue ++ [item])
  (popped : next.popped queue = state.popped queue)

include memory pushed popped

theorem Counts.publishHead (counts : state.Counts start queue)
    (later : Extends state.memory next.memory)
    (space : (state.pushed queue).length <
      state.seenTail queue + (layout.capacity queue).value.toNat) : next.Counts start queue := by
  have count : (next.pushed queue).length = (state.pushed queue).length + 1 := by
    rw [pushed, List.length_append, List.length_singleton]
  refine ⟨?_, ?_, ?_, ?_, ?_, ?_⟩
  · rw [count, memory, storeRelease_newest, counts.heads]
  · rw [popped, memory]
    exact (storeRelease_newest_of_ne _ _ _ _ (by simp)).trans counts.tails
  · rw [count]
    intro n old
    rcases Nat.le_or_eq_of_le_succ old with before | rfl
    · rw [later.message _ n (by rwa [counts.heads]), counts.headValue n before]
    · rw [message_storeRelease memory counts.heads]
      exact counter_succ _ _
  · rw [popped]
    intro n old
    rw [later.message _ n (by rwa [counts.tails]), counts.tailValue n old]
  · rw [count]
    exact space.trans_le (Nat.add_le_add_right (seenTail_mono later queue) _)
  · rw [popped]
    exact counts.known.trans (seenHead_mono later queue)

theorem Holds.slots_publishHead (holds : state.Holds start queue)
    (sound : Sound layout.owner state.memory) (later : Extends state.memory next.memory)
    (written : state.memory.cells (slot layout start queue (state.pushed queue).length) = item) :
    next.Slots start queue := by
  have counts := holds.counts
  have slots := holds.slots
  have cells : next.memory.cells = state.memory.cells := by rw [memory]; rfl
  have accesses : next.memory.accesses = state.memory.accesses := by rw [memory]; rfl
  have count : (next.pushed queue).length = (state.pushed queue).length + 1 := by
    rw [pushed, List.length_append, List.length_singleton]
  refine ⟨?_, ?_, ?_, ?_⟩
  · rw [count, popped, cells, pushed]
    intro n unread less
    rcases Nat.lt_or_eq_of_le (Nat.le_of_lt_succ less) with before | rfl
    · rw [List.getElem?_append_left before]
      exact slots.stored n unread before
    · rw [List.getElem?_concat_length]
      exact congrArg some written.symm
  · rw [count, popped, accesses]
    intro n unread less access member writer
    rcases Nat.lt_or_eq_of_le (Nat.le_of_lt_succ less) with before | rfl
    · rw [later.message _ _ (by rw [counts.heads]; omega)]
      exact slots.written n unread before access member writer
    · rw [message_storeRelease memory counts.heads]
      have stamp := sound.stamps _ access member
      rw [writer] at stamp
      exact stamp.trans ((later.views _).2 _)
  · rw [count, popped, accesses]
    intro n free less
    rw [later.message _ _ (by rw [counts.tails]; omega)]
    exact slots.vacated n (Nat.le_of_succ_le free) less
  · rw [accesses]
    exact slots.accessed

end Head

/-- The producer publishes the item that it has written. -/
theorem Intact.publishHead (intact : state.Intact start) {item : layout.Item queue}
    {head : UInt64} (here : state.producers queue = .wroteSlot item head)
    (memory : next.memory =
      state.memory.storeRelease (layout.producer queue) (.head queue) (head + 1))
    (producers : next.producers = Function.update state.producers queue .idle)
    (consumers : next.consumers = state.consumers)
    (pushed : next.pushed = Function.update state.pushed queue (state.pushed queue ++ [item]))
    (popped : next.popped = state.popped) : next.Intact start := by
  have holds := intact.holds queue
  have pushing := holds.pushing
  rw [here] at pushing
  obtain ⟨rfl, space, written⟩ := pushing
  have later : Extends state.memory next.memory :=
    memory ▸ intact.sound.extends_storeRelease (.head queue) _
  have items : next.pushed queue = state.pushed queue ++ [item] := by
    rw [pushed, Function.update_self]
  have same : next.popped queue = state.popped queue := by rw [popped]
  refine intact.change queue (memory ▸ intact.sound.storeRelease (.head queue) _)
    (by rw [memory]; rfl) (fun other different => ?_)
    (fun other different => by rw [producers, Function.update_of_ne different])
    (fun _ _ => by rw [consumers])
    ⟨holds.counts.publishHead memory items same later space,
      holds.slots_publishHead memory items same intact.sound later written, ?_, ?_, ?_⟩
  · exact intact.keeps_storeRelease (.head queue) _
      (fun same => different (QueueLocation.head.inj same)) nofun memory
      (by rw [pushed, Function.update_of_ne different]) (by rw [popped])
  · rw [popped, items]
    exact holds.fifo.trans (List.prefix_append _ _)
  · rw [producers, Function.update_self]
    trivial
  · rw [consumers]
    exact holds.popping.keep later (items ▸ List.prefix_append _ _) same

section Tail

variable {out : layout.Item queue}
  (memory : next.memory = state.memory.storeRelease (layout.consumer queue) (.tail queue)
    (start queue + UInt64.ofNat (state.popped queue).length + 1))
  (pushed : next.pushed queue = state.pushed queue)
  (popped : next.popped queue = state.popped queue ++ [out])

include memory pushed popped

theorem Counts.publishTail (counts : state.Counts start queue)
    (later : Extends state.memory next.memory)
    (item : (state.popped queue).length < state.seenHead queue) : next.Counts start queue := by
  have count : (next.popped queue).length = (state.popped queue).length + 1 := by
    rw [popped, List.length_append, List.length_singleton]
  refine ⟨?_, ?_, ?_, ?_, ?_, ?_⟩
  · rw [pushed, memory]
    exact (storeRelease_newest_of_ne _ _ _ _ (by simp)).trans counts.heads
  · rw [count, memory, storeRelease_newest, counts.tails]
  · rw [pushed]
    intro n old
    rw [later.message _ n (by rwa [counts.heads]), counts.headValue n old]
  · rw [count]
    intro n old
    rcases Nat.le_or_eq_of_le_succ old with before | rfl
    · rw [later.message _ n (by rwa [counts.tails]), counts.tailValue n before]
    · rw [message_storeRelease memory counts.tails]
      exact counter_succ _ _
  · rw [pushed]
    exact counts.room.trans (Nat.add_le_add_right (seenTail_mono later queue) _)
  · rw [count]
    exact item.trans_le (seenHead_mono later queue)

theorem Holds.slots_publishTail (holds : state.Holds start queue)
    (sound : Sound layout.owner state.memory) (later : Extends state.memory next.memory) :
    next.Slots start queue := by
  have counts := holds.counts
  have slots := holds.slots
  have cells : next.memory.cells = state.memory.cells := by rw [memory]; rfl
  have accesses : next.memory.accesses = state.memory.accesses := by rw [memory]; rfl
  have count : (next.popped queue).length = (state.popped queue).length + 1 := by
    rw [popped, List.length_append, List.length_singleton]
  refine ⟨?_, ?_, ?_, ?_⟩
  · rw [count, pushed, cells]
    exact fun n unread => slots.stored n (Nat.le_of_succ_le unread)
  · rw [count, pushed, accesses]
    intro n unread less
    rw [later.message _ _ (by rw [counts.heads]; omega)]
    exact slots.written n (Nat.le_of_succ_le unread) less
  · rw [count, pushed, accesses]
    intro n free less access member reader
    by_cases before : n < (state.popped queue).length + (layout.capacity queue).value.toNat
    · rw [later.message _ _ (by rw [counts.tails]; omega)]
      exact slots.vacated n free before access member reader
    · -- the slot that is given back now
      obtain rfl : n = (state.popped queue).length + (layout.capacity queue).value.toNat := by
        omega
      rw [Nat.add_right_comm, Nat.add_sub_cancel, message_storeRelease memory counts.tails]
      have stamp := sound.stamps _ access member
      rw [reader] at stamp
      exact stamp.trans ((later.views _).2 _)
  · rw [accesses]
    exact slots.accessed

end Tail

/-- The consumer gives the slot that it has read back. -/
theorem Intact.publishTail (intact : state.Intact start) {tail : UInt64}
    {out : layout.Item queue} (here : state.consumers queue = .readSlot tail out)
    (memory : next.memory =
      state.memory.storeRelease (layout.consumer queue) (.tail queue) (tail + 1))
    (consumers : next.consumers = Function.update state.consumers queue .idle)
    (producers : next.producers = state.producers) (pushed : next.pushed = state.pushed)
    (popped : next.popped = Function.update state.popped queue (state.popped queue ++ [out])) :
    next.Intact start := by
  have holds := intact.holds queue
  have popping := holds.popping
  rw [here] at popping
  obtain ⟨rfl, item, isOut⟩ := popping
  have later : Extends state.memory next.memory :=
    memory ▸ intact.sound.extends_storeRelease (.tail queue) _
  have items : next.popped queue = state.popped queue ++ [out] := by
    rw [popped, Function.update_self]
  have same : next.pushed queue = state.pushed queue := by rw [pushed]
  refine intact.change queue (memory ▸ intact.sound.storeRelease (.tail queue) _)
    (by rw [memory]; rfl) (fun other different => ?_) (fun _ _ => by rw [producers])
    (fun other different => by rw [consumers, Function.update_of_ne different])
    ⟨holds.counts.publishTail memory same items later item,
      holds.slots_publishTail memory same items intact.sound later, ?_, ?_, ?_⟩
  · exact intact.keeps_storeRelease (.tail queue) _ nofun
      (fun same => different (QueueLocation.tail.inj same)) memory (by rw [pushed])
      (by rw [popped, Function.update_of_ne different])
  · rw [pushed, items]
    obtain ⟨inside, rfl⟩ := List.getElem?_eq_some_iff.mp isOut
    exact List.concat_get_prefix holds.fifo inside
  · rw [producers]
    exact holds.pushing.keep later same (fun index => by rw [memory]; rfl)
  · rw [consumers, Function.update_self]
    trivial

/-! ### Calls -/

/-- A load of a thread's own counter returns its newest value. -/
theorem Intact.loadOwnHead (intact : state.Intact start) (queue : Q) (pick : Nat) :
    state.memory.loadRelaxed (layout.producer queue) (.head queue) pick =
      (state.memory, start queue + UInt64.ofNat (state.pushed queue).length) := by
  have counts := (intact.holds queue).counts
  rw [← counts.headValue _ le_rfl, ← counts.heads]
  exact intact.sound.loadRelaxed_own (.head queue) pick

theorem Intact.loadOwnTail (intact : state.Intact start) (queue : Q) (pick : Nat) :
    state.memory.loadRelaxed (layout.consumer queue) (.tail queue) pick =
      (state.memory, start queue + UInt64.ofNat (state.popped queue).length) := by
  have counts := (intact.holds queue).counts
  rw [← counts.tailValue _ le_rfl, ← counts.tails]
  exact intact.sound.loadRelaxed_own (.tail queue) pick

theorem Intact.tryPushStep (intact : state.Intact start) (queue : Q) (item : layout.Item queue)
    (pick : Nat) : (state.tryPushStep queue item pick).1.Intact start := by
  rw [WeakQueues.tryPushStep]
  cases here : state.producers queue with
  | idle =>
      simp only [intact.loadOwnHead queue pick]
      refine intact.moveProducer intact.sound rfl (fun other => ?_) rfl rfl rfl
      refine keeps_of_memory ?_ ?_ ?_ other <;> rfl
  | loadedHead item head =>
      obtain ⟨n, value, le, bounded, seen⟩ := intact.loadTail queue pick
      have pushing := (intact.holds queue).pushing
      rw [here] at pushing
      dsimp only
      split
      · exact intact.loadProducer rfl rfl rfl rfl rfl trivial
      · rename_i space
        rw [value, pushing, UInt64.not_le] at space
        have room := lt_of_counter_sub_lt _ _ le bounded space
        exact intact.loadProducer rfl rfl rfl rfl rfl
          ⟨pushing, room.trans_le (Nat.add_le_add_right seen _)⟩
  | hasSpace item head => exact intact.writeSlot here rfl rfl rfl rfl rfl
  | wroteSlot item head => exact intact.publishHead here rfl rfl rfl rfl rfl

theorem Intact.tryPopStep (intact : state.Intact start) (queue : Q) (pick : Nat) :
    (state.tryPopStep queue pick).1.Intact start := by
  rw [WeakQueues.tryPopStep]
  cases here : state.consumers queue with
  | idle =>
      simp only [intact.loadOwnTail queue pick]
      refine intact.moveConsumer intact.sound rfl (fun other => ?_) rfl rfl rfl
      refine keeps_of_memory ?_ ?_ ?_ other <;> rfl
  | loadedTail tail =>
      obtain ⟨n, value, le, _, _, seen⟩ := intact.loadHead queue pick
      have popping := (intact.holds queue).popping
      rw [here] at popping
      dsimp only
      split
      · exact intact.loadConsumer rfl rfl rfl rfl rfl trivial
      · rename_i different
        rw [value, popping] at different
        have item : (state.popped queue).length < n :=
          lt_of_le_of_ne le (fun same => different (by rw [same]))
        exact intact.loadConsumer rfl rfl rfl rfl rfl ⟨popping, item.trans_le seen⟩
  | hasItem tail => exact intact.readSlot here rfl rfl rfl rfl rfl
  | readSlot tail out => exact intact.publishTail here rfl rfl rfl rfl rfl

theorem Intact.step (intact : state.Intact start) (event : WeakQueueEvent layout) :
    (state.step event).Intact start := by
  cases event with
  | push queue item pick => exact intact.tryPushStep queue item pick
  | pop queue pick => exact intact.tryPopStep queue pick
  | look thread location pick => exact intact.look thread location pick
  | setFlag name value => exact intact.setFlag name value

/-! ### What one step of a call does -/

/-- A producer that is in a call pushes this item. -/
def Carries {T : Type} (point : Producer T) (item : T) : Prop :=
  ∀ carried, point.item? = some carried → carried = item

/-- A step of `try_push` returns with its item pushed, or has not changed the items. -/
structure PushStep (queue : Q) (item : layout.Item queue) (state next : WeakQueues layout)
    (outcome : Option (QueueOutcome (layout.Item queue))) : Prop where
  later : Extends state.memory next.memory
  flags : ∀ name, next.memory.newest (.flag name) = state.memory.newest (.flag name)
  popped : next.popped = state.popped
  elsewhere : ∀ other, other ≠ queue →
    next.producers other = state.producers other ∧ next.pushed other = state.pushed other
  pushes : Carries (state.producers queue) item →
    outcome = some (.pushed item) ∧ next.producers queue = .idle ∧
        next.pushed queue = state.pushed queue ++ [item] ∨
      (∀ other, outcome ≠ some (.pushed other)) ∧ Carries (next.producers queue) item ∧
        next.pushed queue = state.pushed queue

omit [DecidableEq τ] [DecidableEq F] in
/-- A step after which the call still runs, or has found the queue full. -/
theorem pushStep_of_running {point : Producer (layout.Item queue)} {item : layout.Item queue}
    {outcome : Option (QueueOutcome (layout.Item queue))}
    (later : Extends state.memory next.memory)
    (flags : ∀ name, next.memory.newest (.flag name) = state.memory.newest (.flag name))
    (popped : next.popped = state.popped) (pushed : next.pushed = state.pushed)
    (producers : next.producers = Function.update state.producers queue point)
    (running : ∀ other, outcome ≠ some (.pushed other))
    (carries : Carries (state.producers queue) item → Carries point item) :
    PushStep queue item state next outcome where
  later := later
  flags := flags
  popped := popped
  elsewhere other different := by
    rw [producers, pushed]
    exact ⟨Function.update_of_ne different _ _, rfl⟩
  pushes same := by
    refine .inr ⟨running, ?_, by rw [pushed]⟩
    rw [producers, Function.update_self]
    exact carries same

theorem Intact.pushStep (intact : state.Intact start) (queue : Q) (item : layout.Item queue)
    (pick : Nat) :
    PushStep queue item state (state.tryPushStep queue item pick).1
      (state.tryPushStep queue item pick).2 := by
  rw [WeakQueues.tryPushStep]
  cases here : state.producers queue with
  | idle =>
      simp only [intact.loadOwnHead queue pick]
      refine pushStep_of_running (extends_refl _) (fun _ => rfl) rfl rfl rfl (by simp) ?_
      exact fun _ carried same => (Option.some.inj same).symm
  | loadedHead carried head =>
      dsimp only
      have later := extends_loadAcquire state.memory (layout.producer queue) (.tail queue) pick
      split
      · refine pushStep_of_running later (fun _ => rfl) rfl rfl rfl (by simp) ?_
        exact fun _ => by simp [Carries, Producer.item?]
      · refine pushStep_of_running later (fun _ => rfl) rfl rfl rfl (by simp) ?_
        rw [here]
        exact id
  | hasSpace carried head =>
      refine pushStep_of_running (extends_write _ _ _ _) (fun _ => rfl) rfl rfl rfl (by simp) ?_
      rw [here]
      exact id
  | wroteSlot carried head =>
      refine ⟨intact.sound.extends_storeRelease (.head queue) _,
        fun name => storeRelease_newest_of_ne _ _ _ _ (by simp), rfl, fun other different => ?_,
        fun carries => ?_⟩
      · exact ⟨Function.update_of_ne different _ _, Function.update_of_ne different _ _⟩
      · rw [here] at carries
        obtain rfl := carries carried rfl
        exact .inl ⟨rfl, Function.update_self _ _ _, Function.update_self _ _ _⟩

/-- A step of `try_pop` returns with an item popped, or has not changed the items. -/
structure PopStep (queue : Q) (state next : WeakQueues layout)
    (outcome : Option (QueueOutcome (layout.Item queue))) : Prop where
  later : Extends state.memory next.memory
  flags : ∀ name, next.memory.newest (.flag name) = state.memory.newest (.flag name)
  producers : next.producers = state.producers
  pushed : next.pushed = state.pushed
  elsewhere : ∀ other, other ≠ queue → next.popped other = state.popped other
  pops : (∃ out, outcome = some (.popped out) ∧
      next.popped queue = state.popped queue ++ [out]) ∨
    (∀ out, outcome ≠ some (.popped out)) ∧ next.popped queue = state.popped queue

theorem Intact.popStep (intact : state.Intact start) (queue : Q) (pick : Nat) :
    PopStep queue state (state.tryPopStep queue pick).1 (state.tryPopStep queue pick).2 := by
  rw [WeakQueues.tryPopStep]
  cases here : state.consumers queue with
  | idle =>
      simp only [intact.loadOwnTail queue pick]
      exact ⟨extends_refl _, fun _ => rfl, rfl, rfl, fun _ _ => rfl, .inr ⟨by simp, rfl⟩⟩
  | loadedTail tail =>
      dsimp only
      have later := extends_loadAcquire state.memory (layout.consumer queue) (.head queue) pick
      split
      · exact ⟨later, fun _ => rfl, rfl, rfl, fun _ _ => rfl, .inr ⟨by simp, rfl⟩⟩
      · exact ⟨later, fun _ => rfl, rfl, rfl, fun _ _ => rfl, .inr ⟨by simp, rfl⟩⟩
  | hasItem tail =>
      exact ⟨extends_access _ _ _ _, fun _ => rfl, rfl, rfl, fun _ _ => rfl,
        .inr ⟨by simp, rfl⟩⟩
  | readSlot tail out =>
      refine ⟨intact.sound.extends_storeRelease (.tail queue) _,
        fun name => storeRelease_newest_of_ne _ _ _ _ (by simp), rfl, rfl,
        fun other different => Function.update_of_ne different _ _,
        .inl ⟨out, rfl, Function.update_self _ _ _⟩⟩

/-! ### Runs -/

theorem intact_run (layout : QueueLayout τ Q F) (start : Q → UInt64)
    (buffers : (cell : layout.Cell) → layout.Item cell.1)
    (events : List (WeakQueueEvent layout)) :
    (Schedule.run WeakQueues.step (initial layout start buffers) events).Intact start :=
  Schedule.run_invariant (fun _ event intact => intact.step event) (intact_initial _ _ _) events

/-- Whatever the loads return, no two accesses to a slot race, and every queue hands its items
over once and in their order and never holds more than its capacity. -/
theorem race_free_fifo (layout : QueueLayout τ Q F) (start : Q → UInt64)
    (buffers : (cell : layout.Cell) → layout.Item cell.1)
    (events : List (WeakQueueEvent layout)) :
    let state := Schedule.run WeakQueues.step (initial layout start buffers) events
    state.memory.raced = false ∧ ∀ queue, state.popped queue <+: state.pushed queue ∧
      (state.pushed queue).length ≤
        (state.popped queue).length + (layout.capacity queue).value.toNat := by
  intro state
  have intact := intact_run layout start buffers events
  exact ⟨intact.raceFree, fun queue =>
    ⟨(intact.holds queue).fifo, (intact.holds queue).counts.bounded intact.sound⟩⟩

end WeakQueues

end Lob
