import Lob.SPSCQueue.Fifo

/-!
# Reading the size of a queue in use

`SPSCQueue::size` loads the two counters one after the other, and the compiler may choose
either order. A third thread that calls it, as `market_viewer` does for the queue between the
feed and the engine, subtracts counters of two different moments: the producer or the
consumer may have moved on in between. The source calls the result approximate.

Here every reading is kept together with the traffic between its two loads. What it shows is
the number of stored items at the first load, less the pops in between or plus the pushes in
between, as a 64-bit number. It lies in range exactly if this difference or sum does.
-/

namespace Lob

variable {T : Type} {capacity : PowerOfTwo}

/-! ### The observer -/

/-- The state of the queue at the first load of a call of `size`. -/
structure SizeMark where
  stored : Nat
  pushed : Nat
  popped : Nat
  deriving DecidableEq, Repr

/-- Where the observer is in its call of `size`. -/
inductive SizeCall where
  | idle
  | loadedHead (head : UInt64) (mark : SizeMark)
  | loadedTail (tail : UInt64) (mark : SizeMark)
  deriving DecidableEq, Repr

/-- A call of `size` that has returned: its value, the items stored at its first load, and
what was pushed and popped until the second one. -/
structure SizeReading where
  headFirst : Bool
  value : UInt64
  stored : Nat
  pushes : Nat
  pops : Nat
  deriving DecidableEq, Repr

/-- A run of the queue with an observer. -/
structure MonitoredRun (T : Type) (capacity : PowerOfTwo) where
  run : SPSCRun T capacity
  observer : SizeCall := .idle
  readings : List SizeReading := []

/-- A step of the queue, or one of the observer with the order of evaluation of its call. -/
inductive MonitorEvent (T : Type) where
  | queue (event : QueueEvent T)
  | observer (headFirst : Bool)
  deriving DecidableEq, Repr

namespace MonitoredRun

def initial (counter : UInt64) (buffer : Vector T capacity.value.toNat) :
    MonitoredRun T capacity where
  run := .initial counter buffer

def mark (monitored : MonitoredRun T capacity) : SizeMark where
  stored := monitored.run.system.queue.stored.length
  pushed := monitored.run.pushed.length
  popped := monitored.run.popped.length

/-- The reading of a call that began at the mark and returns now. -/
def reading (monitored : MonitoredRun T capacity) (headFirst : Bool) (value : UInt64)
    (mark : SizeMark) : SizeReading where
  headFirst := headFirst
  value := value
  stored := mark.stored
  pushes := monitored.run.pushed.length - mark.pushed
  pops := monitored.run.popped.length - mark.popped

/-- The next step of `SPSCQueue::size`. -/
def sizeStep (monitored : MonitoredRun T capacity) (headFirst : Bool) :
    MonitoredRun T capacity :=
  let queue := monitored.run.system.queue
  match monitored.observer with
  | .idle =>
      { monitored with
        observer :=
          if headFirst then .loadedHead queue.head monitored.mark
          else .loadedTail queue.tail monitored.mark }
  | .loadedHead head mark =>
      { monitored with
        observer := .idle
        readings := monitored.readings ++ [monitored.reading true (head - queue.tail) mark] }
  | .loadedTail tail mark =>
      { monitored with
        observer := .idle
        readings := monitored.readings ++ [monitored.reading false (queue.head - tail) mark] }

def step (monitored : MonitoredRun T capacity) : MonitorEvent T → MonitoredRun T capacity
  | .queue event => { monitored with run := monitored.run.step event }
  | .observer headFirst => monitored.sizeStep headFirst

end MonitoredRun

/-! ### The counters count -/

theorem SPSCSystem.Coherent.counters_step {system : SPSCSystem T capacity}
    (coherent : system.Coherent) (event : QueueEvent T) :
    (system.step event).1.queue.head = system.queue.head +
        UInt64.ofNat ((system.step event).2.toList.filterMap QueueOutcome.pushed?).length ∧
      (system.step event).1.queue.tail = system.queue.tail +
        UInt64.ofNat ((system.step event).2.toList.filterMap QueueOutcome.popped?).length := by
  obtain ⟨queue, producer, consumer⟩ := system
  obtain ⟨_, producerAgrees, consumerAgrees⟩ := coherent
  dsimp only at producerAgrees consumerAgrees
  cases event with
  | producer item =>
      cases producer with
      | idle => exact ⟨(UInt64.add_zero _).symm, (UInt64.add_zero _).symm⟩
      | loadedHead item head =>
          simp only [SPSCSystem.step, SPSCSystem.tryPushStep]
          split <;> exact ⟨(UInt64.add_zero _).symm, (UInt64.add_zero _).symm⟩
      | hasSpace item head => exact ⟨(UInt64.add_zero _).symm, (UInt64.add_zero _).symm⟩
      | wroteSlot item head =>
          obtain ⟨rfl, _⟩ := producerAgrees
          exact ⟨rfl, (UInt64.add_zero _).symm⟩
  | consumer =>
      cases consumer with
      | idle => exact ⟨(UInt64.add_zero _).symm, (UInt64.add_zero _).symm⟩
      | loadedTail tail =>
          simp only [SPSCSystem.step, SPSCSystem.tryPopStep]
          split <;> exact ⟨(UInt64.add_zero _).symm, (UInt64.add_zero _).symm⟩
      | hasItem tail => exact ⟨(UInt64.add_zero _).symm, (UInt64.add_zero _).symm⟩
      | readSlot tail out =>
          obtain ⟨rfl, _⟩ := consumerAgrees
          exact ⟨(UInt64.add_zero _).symm, rfl⟩

namespace SPSCRun

/-- Both counters count on from their common start. -/
structure Counted (counter : UInt64) (run : SPSCRun T capacity) : Prop where
  head : run.system.queue.head = counter + UInt64.ofNat run.pushed.length
  tail : run.system.queue.tail = counter + UInt64.ofNat run.popped.length

variable {counter : UInt64} {run : SPSCRun T capacity}

theorem counted_initial (counter : UInt64) (buffer : Vector T capacity.value.toNat) :
    (initial counter buffer).Counted counter :=
  ⟨(UInt64.add_zero _).symm, (UInt64.add_zero _).symm⟩

theorem Counted.step (counted : run.Counted counter) (lossless : run.Lossless)
    (event : QueueEvent T) : (run.step event).Counted counter := by
  obtain ⟨head, tail⟩ := lossless.coherent.counters_step event
  constructor
  · rw [pushed_step, List.length_append, UInt64.ofNat_add, ← UInt64.add_assoc, ← counted.head]
    exact head
  · rw [popped_step, List.length_append, UInt64.ofNat_add, ← UInt64.add_assoc, ← counted.tail]
    exact tail

theorem Lossless.length_pushed (lossless : run.Lossless) :
    run.pushed.length = run.popped.length + run.system.queue.stored.length := by
  rw [lossless.pushed, List.length_append]

theorem Lossless.length_stored_le (lossless : run.Lossless) :
    run.system.queue.stored.length ≤ capacity.value.toNat := by
  rw [SPSCQueue.length_stored]
  exact lossless.coherent.bounded

/-- Pushes and pops only ever add up. -/
theorem lengths_step (run : SPSCRun T capacity) (event : QueueEvent T) :
    run.pushed.length ≤ (run.step event).pushed.length ∧
      run.popped.length ≤ (run.step event).popped.length := by
  rw [pushed_step, popped_step, List.length_append, List.length_append]
  exact ⟨Nat.le_add_right _ _, Nat.le_add_right _ _⟩

end SPSCRun

/-! ### Readings -/

/-- What a reading shows, and when it is in range. Traffic of `2^64` items between two loads
would bring the counters back to where they were. -/
structure SizeReading.Approximates (reading : SizeReading) (capacity : PowerOfTwo) : Prop where
  stored : reading.stored ≤ capacity.value.toNat
  value : reading.value =
    if reading.headFirst then UInt64.ofNat reading.stored - UInt64.ofNat reading.pops
    else UInt64.ofNat reading.stored + UInt64.ofNat reading.pushes
  headFirst : reading.headFirst = true → reading.pops < 2 ^ 64 - capacity.value.toNat →
    (reading.value ≤ capacity.value ↔ reading.pops ≤ reading.stored)
  tailFirst : reading.headFirst = false → reading.pushes < 2 ^ 64 - capacity.value.toNat →
    (reading.value ≤ capacity.value ↔
      reading.stored + reading.pushes ≤ capacity.value.toNat)

/-- The difference of two counts, as an unsigned number, is small exactly if it is one. -/
theorem ofNat_sub_ofNat_le_iff {bound : UInt64} {stored pops : Nat}
    (fits : stored ≤ bound.toNat) (few : pops < 2 ^ 64 - bound.toNat) :
    UInt64.ofNat stored - UInt64.ofNat pops ≤ bound ↔ pops ≤ stored := by
  have range := bound.toNat_lt
  have left : (UInt64.ofNat stored).toNat = stored :=
    UInt64.toNat_ofNat_of_lt' (show stored < 2 ^ 64 by omega)
  have right : (UInt64.ofNat pops).toNat = pops :=
    UInt64.toNat_ofNat_of_lt' (show pops < 2 ^ 64 by omega)
  rw [UInt64.le_iff_toNat_le, UInt64.toNat_sub, left, right]
  omega

theorem ofNat_add_ofNat_le_iff {bound : UInt64} {stored pushes : Nat}
    (fits : stored ≤ bound.toNat) (few : pushes < 2 ^ 64 - bound.toNat) :
    UInt64.ofNat stored + UInt64.ofNat pushes ≤ bound ↔ stored + pushes ≤ bound.toNat := by
  have range := bound.toNat_lt
  rw [← UInt64.ofNat_add, UInt64.le_iff_toNat_le,
    UInt64.toNat_ofNat_of_lt' (show stored + pushes < 2 ^ 64 by omega)]

theorem SizeReading.approximates_of_value {reading : SizeReading}
    (stored : reading.stored ≤ capacity.value.toNat)
    (value : reading.value =
      if reading.headFirst then UInt64.ofNat reading.stored - UInt64.ofNat reading.pops
      else UInt64.ofNat reading.stored + UInt64.ofNat reading.pushes) :
    reading.Approximates capacity := by
  refine ⟨stored, value, fun headFirst few => ?_, fun tailFirst few => ?_⟩
  · rw [value, headFirst, if_pos rfl]
    exact ofNat_sub_ofNat_le_iff stored few
  · rw [value, tailFirst, if_neg Bool.false_ne_true]
    exact ofNat_add_ofNat_le_iff stored few

namespace MonitoredRun

variable {mark : SizeMark}

/-- The mark of a call that is under way is one of an earlier state of the queue. -/
structure Marked (run : SPSCRun T capacity) (mark : SizeMark) : Prop where
  stored : mark.stored ≤ capacity.value.toNat
  balance : mark.pushed = mark.popped + mark.stored
  pushed : mark.pushed ≤ run.pushed.length
  popped : mark.popped ≤ run.popped.length

/-- What the observer holds was loaded at its mark. -/
def ObserverAgrees (counter : UInt64) (run : SPSCRun T capacity) : SizeCall → Prop
  | .idle => True
  | .loadedHead head mark => Marked run mark ∧ head = counter + UInt64.ofNat mark.pushed
  | .loadedTail tail mark => Marked run mark ∧ tail = counter + UInt64.ofNat mark.popped

/-- What holds in every state of a monitored run. -/
structure Watches (counter : UInt64) (monitored : MonitoredRun T capacity) : Prop where
  lossless : monitored.run.Lossless
  counted : monitored.run.Counted counter
  observer : ObserverAgrees counter monitored.run monitored.observer
  readings : ∀ reading ∈ monitored.readings, reading.Approximates capacity

variable {counter : UInt64} {monitored : MonitoredRun T capacity}

theorem watches_initial (counter : UInt64) (buffer : Vector T capacity.value.toNat) :
    (initial counter buffer).Watches counter where
  lossless := SPSCRun.lossless_initial counter buffer
  counted := SPSCRun.counted_initial counter buffer
  observer := trivial
  readings := fun _ member => absurd member List.not_mem_nil

theorem Marked.step {run : SPSCRun T capacity} (marked : Marked run mark) (event : QueueEvent T) :
    Marked (run.step event) mark := by
  obtain ⟨pushes, pops⟩ := run.lengths_step event
  exact ⟨marked.stored, marked.balance, marked.pushed.trans pushes, marked.popped.trans pops⟩

theorem Watches.marked (watches : monitored.Watches counter) :
    Marked monitored.run monitored.mark :=
  ⟨watches.lossless.length_stored_le, watches.lossless.length_pushed, Nat.le_refl _,
    Nat.le_refl _⟩

theorem Watches.readHeadFirst (watches : monitored.Watches counter)
    (marked : Marked monitored.run mark) :
    (monitored.reading true
      (counter + UInt64.ofNat mark.pushed - monitored.run.system.queue.tail) mark).Approximates
        capacity := by
  apply SizeReading.approximates_of_value marked.stored
  have popped : monitored.run.popped.length =
      mark.popped + (monitored.run.popped.length - mark.popped) := by
    have := marked.popped
    omega
  rw [watches.counted.tail, popped, marked.balance]
  simp only [reading, if_true, UInt64.ofNat_add]
  grind

theorem Watches.readTailFirst (watches : monitored.Watches counter)
    (marked : Marked monitored.run mark) :
    (monitored.reading false
      (monitored.run.system.queue.head - (counter + UInt64.ofNat mark.popped)) mark).Approximates
        capacity := by
  apply SizeReading.approximates_of_value marked.stored
  have pushed : monitored.run.pushed.length =
      mark.popped + mark.stored + (monitored.run.pushed.length - mark.pushed) := by
    have := marked.pushed
    have := marked.balance
    omega
  rw [watches.counted.head, pushed]
  simp only [reading, Bool.false_eq_true, if_false, UInt64.ofNat_add]
  grind

theorem Watches.sizeStep (watches : monitored.Watches counter) (headFirst : Bool) :
    (monitored.sizeStep headFirst).Watches counter := by
  have marked := watches.marked
  obtain ⟨run, observer, readings⟩ := monitored
  have kept := watches.readings
  have agrees := watches.observer
  dsimp only at kept agrees
  cases observer with
  | idle =>
      refine ⟨watches.lossless, watches.counted, ?_, kept⟩
      simp only [MonitoredRun.sizeStep]
      split
      · exact ⟨marked, watches.counted.head⟩
      · exact ⟨marked, watches.counted.tail⟩
  | loadedHead head mark =>
      obtain ⟨earlier, rfl⟩ := agrees
      refine ⟨watches.lossless, watches.counted, trivial, ?_⟩
      simp only [MonitoredRun.sizeStep, List.mem_append, List.mem_singleton]
      rintro reading (old | rfl)
      · exact kept reading old
      · exact watches.readHeadFirst earlier
  | loadedTail tail mark =>
      obtain ⟨earlier, rfl⟩ := agrees
      refine ⟨watches.lossless, watches.counted, trivial, ?_⟩
      simp only [MonitoredRun.sizeStep, List.mem_append, List.mem_singleton]
      rintro reading (old | rfl)
      · exact kept reading old
      · exact watches.readTailFirst earlier

theorem Watches.step (watches : monitored.Watches counter) (event : MonitorEvent T) :
    (monitored.step event).Watches counter := by
  cases event with
  | observer headFirst => exact watches.sizeStep headFirst
  | queue event =>
      refine ⟨watches.lossless.step event, watches.counted.step watches.lossless event, ?_,
        watches.readings⟩
      have agrees := watches.observer
      simp only [MonitoredRun.step]
      cases observer : monitored.observer with
      | idle => trivial
      | loadedHead head mark =>
          rw [observer] at agrees
          exact ⟨agrees.1.step event, agrees.2⟩
      | loadedTail tail mark =>
          rw [observer] at agrees
          exact ⟨agrees.1.step event, agrees.2⟩

/-- In every interleaving, every call of `size` returns the number of items stored at its
first load, changed by the traffic until its second load. -/
theorem size_approximates (counter : UInt64) (buffer : Vector T capacity.value.toNat)
    (events : List (MonitorEvent T)) :
    ∀ reading ∈ (Schedule.run MonitoredRun.step (initial counter buffer) events).readings,
      reading.Approximates capacity :=
  (Schedule.run_invariant (fun _ event known => known.step event)
    (watches_initial counter buffer) events).readings

/-- An item that is pushed between the loads does not show if `head_` is loaded first. -/
theorem size_approximates_late_push :
    let one : PowerOfTwo := { value := 1, powerOfTwo := by decide, positive := by decide }
    let events : List (MonitorEvent Bool) :=
      [.observer true] ++ List.replicate 4 (.queue (.producer true)) ++ [.observer true]
    let start : MonitoredRun Bool one := initial 0 (Vector.replicate _ false)
    let reading : SizeReading :=
      { headFirst := true, value := 0, stored := 0, pushes := 1, pops := 0 }
    reading ∈ (Schedule.run MonitoredRun.step start events).readings ∧
      reading.Approximates one := by
  intro one events start reading
  have shown : reading ∈ (Schedule.run MonitoredRun.step start events).readings := by
    decide +kernel
  exact ⟨shown, size_approximates 0 _ events reading shown⟩

/-- Out of range both ways, in a queue for one item. An item that is pushed and popped
between the loads makes the size the largest number of 64 bits if `head_` is loaded first,
and an item that is replaced makes it two if `tail_` is loaded first. -/
theorem size_out_of_range :
    let one : PowerOfTwo := { value := 1, powerOfTwo := by decide, positive := by decide }
    let push : List (MonitorEvent Bool) := List.replicate 4 (.queue (.producer true))
    let pop : List (MonitorEvent Bool) := List.replicate 4 (.queue .consumer)
    let start : MonitoredRun Bool one := initial 0 (Vector.replicate _ false)
    (Schedule.run MonitoredRun.step start
        ([.observer true] ++ push ++ pop ++ [.observer true])).readings =
      [{ headFirst := true, value := 0xFFFFFFFFFFFFFFFF, stored := 0, pushes := 1, pops := 1 }] ∧
    (Schedule.run MonitoredRun.step start
        ([.observer false] ++ push ++ pop ++ push ++ [.observer false])).readings =
      [{ headFirst := false, value := 2, stored := 0, pushes := 2, pops := 1 }] := by
  decide +kernel

end MonitoredRun

end Lob
