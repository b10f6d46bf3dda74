import Lob.Library.Schedule
import Lob.Library.Waiting
import Lob.MPMCQueue.Threads

/-!
# The MPMC queue loses no wakeup

One waiter is notified for each item and for each free slot, and only after the mutex has
been released, so that another thread may take the item or the slot first. While a thread is
blocked in `pop`, every stored item is therefore spoken for: by a thread in `pop` that has
not tested its predicate yet or by one that has yet to notify. The same holds for threads
blocked in `push` and free slots, as long as the queue is open. Once it is closed, a blocked
thread has a `notify_all` coming.
-/

namespace Lob

variable {T : Type} {threads : Nat}

namespace MPMCPoint

/-- Blocked on `not_empty_`. -/
@[simp] def waitsPop : MPMCPoint T → Prop
  | .blockedPop => True
  | _ => False

/-- Blocked on `not_full_`. -/
@[simp] def waitsPush : MPMCPoint T → Prop
  | .blockedPush _ => True
  | _ => False

/-- The stored items that the thread takes or has yet to announce. -/
@[simp] def speaksForItem : MPMCPoint T → Nat
  | .locking .pop => 1
  | .notifyNotEmpty => 1
  | _ => 0

/-- The free slots that the thread fills or has yet to announce. -/
@[simp] def speaksForSlot : MPMCPoint T → Nat
  | .locking (.push _) => 1
  | .notifyNotFull => 1
  | _ => 0

/-- `not_empty_.notify_all()` is still to come. -/
@[simp] def tellsPop : MPMCPoint T → Prop
  | .notifyAllNotEmpty => True
  | _ => False

/-- `not_full_.notify_all()` is still to come. -/
@[simp] def tellsPush : MPMCPoint T → Prop
  | .notifyAllNotEmpty => True
  | .notifyAllNotFull => True
  | _ => False

/-- Blocked, or outside the operations of the queue. -/
@[simp] def resting : MPMCPoint T → Prop
  | .outside => True
  | .blockedPush _ => True
  | .blockedPop => True
  | _ => False

/-- A resting thread speaks for nothing and tells nobody. -/
theorem idle_of_resting {point : MPMCPoint T} (resting : point.resting) :
    point.speaksForItem = 0 ∧ point.speaksForSlot = 0 ∧ ¬point.tellsPop ∧ ¬point.tellsPush := by
  cases point with
  | outside => exact ⟨rfl, rfl, id, id⟩
  | blockedPush item => exact ⟨rfl, rfl, id, id⟩
  | blockedPop => exact ⟨rfl, rfl, id, id⟩
  | _ => exact resting.elim

end MPMCPoint

/-- The slots that a `push` could fill. -/
def MPMCQueue.freeSlots (queue : MPMCQueue T) : Nat :=
  if queue.closed then 0 else queue.capacity - queue.buffer.length

namespace MPMCQueue

variable {queue : MPMCQueue T}

theorem freeSlots_of_closed (closed : queue.closed = true) : queue.freeSlots = 0 := if_pos closed

theorem freeSlots_of_full (full : queue.capacity ≤ queue.buffer.length) : queue.freeSlots = 0 := by
  rw [freeSlots, Nat.sub_eq_zero_of_le full]
  exact ite_self 0

theorem freeSlots_pushBack (opened : queue.closed = false)
    (room : queue.buffer.length < queue.capacity) (item : T) :
    (queue.pushBack item).freeSlots + 1 = queue.freeSlots := by
  simp only [freeSlots, pushBack, opened, Bool.false_eq_true, if_false, List.length_append,
    List.length_singleton]
  omega

theorem freeSlots_pop {item : T} {rest : List T} (front : queue.buffer = item :: rest) :
    ({ queue with buffer := rest } : MPMCQueue T).freeSlots ≤ queue.freeSlots + 1 := by
  simp only [freeSlots, front, List.length_cons]
  split <;> omega

end MPMCQueue

namespace MPMCRun

variable {point : MPMCPoint T}

open MPMCPoint Waiting

/-- No blocked thread is forgotten. -/
structure Remembers (queue : MPMCQueue T) (points : Fin threads → MPMCPoint T) : Prop where
  items : Served waitsPop speaksForItem queue.buffer.length points
  slots : Served waitsPush speaksForSlot queue.freeSlots points
  poppers : Announced waitsPop tellsPop (queue.closed = true) points
  pushers : Announced waitsPush tellsPush (queue.closed = true) points

variable {run : MPMCRun T threads} {queue : MPMCQueue T} {points : Fin threads → MPMCPoint T}
  {thread : Fin threads}

/-- A thread that neither blocks nor stops speaking for anything. -/
theorem Remembers.move (remembers : Remembers queue points) (freePop : ¬point.waitsPop)
    (freePush : ¬point.waitsPush) (items : (points thread).speaksForItem ≤ point.speaksForItem)
    (slots : (points thread).speaksForSlot ≤ point.speaksForSlot)
    (poppers : (points thread).tellsPop → point.tellsPop)
    (pushers : (points thread).tellsPush → point.tellsPush) :
    Remembers queue (Function.update points thread point) where
  items := remembers.items.move freePop (Nat.add_le_add_left items _)
  slots := remembers.slots.move freePush (Nat.add_le_add_left slots _)
  poppers := remembers.poppers.move freePop poppers
  pushers := remembers.pushers.move freePush pushers

/-- A thread that leaves its section without blocking or closing the queue. -/
theorem Remembers.settle (remembers : Remembers queue points) {call : MPMCCall T}
    (point : points thread = .locking call) {queue' : MPMCQueue T} {next : MPMCPoint T}
    (closed : queue'.closed = queue.closed) (freePop : ¬next.waitsPop) (freePush : ¬next.waitsPush)
    (items : Served waitsPop speaksForItem queue'.buffer.length
      (Function.update points thread next))
    (slots : Served waitsPush speaksForSlot queue'.freeSlots
      (Function.update points thread next)) :
    Remembers queue' (Function.update points thread next) := by
  refine ⟨items, slots, ?_, ?_⟩
  · rw [closed]
    exact remembers.poppers.move freePop (by simp [point])
  · rw [closed]
    exact remembers.pushers.move freePush (by simp [point])

/-- A section under the mutex. -/
theorem Remembers.locked (remembers : Remembers queue points) {call : MPMCCall T}
    (point : points thread = .locking call) :
    Remembers (queue.locked call).1 (Function.update points thread (queue.locked call).2.2) := by
  have acts := queue.acts_locked call
  generalize queue.locked call = answer at acts ⊢
  have items := remembers.items
  have slots := remembers.slots
  cases acts with
  | pushes inserts =>
      obtain ⟨opened, room, rfl⟩ := inserts
      have fewer := queue.freeSlots_pushBack opened room
      refine remembers.settle point rfl id id (items.move id ?_) (slots.move id ?_)
      · simp [point, MPMCQueue.pushBack]
      · simp [point, fewer]
  | pushRefused closed =>
      refine remembers.settle point rfl id id (items.move id ?_) ?_
      · simp [point]
      · rw [MPMCQueue.freeSlots_of_closed closed]
        exact served_of_empty _
  | pushWaits opened full =>
      refine ⟨items.move id ?_, ?_, remembers.poppers.move id (by simp [point]), fun closed => ?_⟩
      · simp [point]
      · rw [MPMCQueue.freeSlots_of_full full]
        exact served_of_empty _
      · rw [opened] at closed
        contradiction
  | tryPushes inserts =>
      obtain ⟨opened, room, rfl⟩ := inserts
      have fewer := queue.freeSlots_pushBack opened room
      refine remembers.settle point rfl id id (items.move id ?_) (slots.move id ?_)
      · simp [point, MPMCQueue.pushBack]
      · simpa [point] using Nat.le_of_succ_le (fewer _).le
  | tryPushRefused shut =>
      refine remembers.settle point rfl id id (items.move id ?_) (slots.move id ?_)
      · simp [point]
      · simp [point]
  | pops front =>
      refine remembers.settle point rfl id id (items.move id ?_) (slots.move id ?_)
      · simp [point, front]
      · simpa [point] using MPMCQueue.freeSlots_pop front
  | popDrained closed empty =>
      refine remembers.settle point rfl id id ?_ (slots.move id ?_)
      · rw [empty]
        exact served_of_empty _
      · simp [point]
  | popWaits opened empty =>
      refine ⟨?_, slots.move id ?_, fun closed => ?_, remembers.pushers.move id (by simp [point])⟩
      · rw [empty]
        exact served_of_empty _
      · simp [point]
      · rw [opened] at closed
        contradiction
  | tryPops front =>
      refine remembers.settle point rfl id id (items.move id ?_) (slots.move id ?_)
      · simp [point, front]
      · simpa [point] using MPMCQueue.freeSlots_pop front
  | tryPopMisses empty =>
      refine remembers.settle point rfl id id (items.move id ?_) (slots.move id ?_)
      · simp [point]
      · simp [point]
  | closes =>
      have full : queue.close.freeSlots = 0 := MPMCQueue.freeSlots_of_closed rfl
      refine ⟨items.move id ?_, ?_, announced_of_announces _ _ trivial,
        announced_of_announces _ _ trivial⟩
      · simp [point, MPMCQueue.close]
      · rw [full]
        exact served_of_empty _

/-! ### The condition variables -/

/-- What `notify_one` does: it wakes a blocked thread if there is one. -/
theorem notifyOne_cases (run : MPMCRun T threads) (wakes : MPMCPoint T → Option (MPMCPoint T))
    (woken : Fin threads) :
    (run.notifyOne wakes woken = run ∧ ∀ thread, wakes (run.points thread) = none) ∨
      ∃ thread point, wakes (run.points thread) = some point ∧
        run.notifyOne wakes woken = run.setPoint thread point := by
  rw [notifyOne]
  cases found : run.picked wakes woken with
  | none =>
      left
      refine ⟨rfl, fun thread => ?_⟩
      rw [picked] at found
      split at found
      · contradiction
      · have nobody := List.find?_eq_none.mp found thread (List.mem_finRange thread)
        simpa using nobody
  | some thread =>
      right
      have waits : (wakes (run.points thread)).isSome = true := by
        rw [picked] at found
        split at found
        · rename_i here
          obtain rfl := Option.some.inj found
          exact here
        · exact List.find?_some (p := fun thread => (wakes (run.points thread)).isSome) found
      obtain ⟨point, wakesTo⟩ := Option.isSome_iff_exists.mp waits
      refine ⟨thread, point, wakesTo, ?_⟩
      dsimp only
      rw [wakesTo]
      rfl

theorem wokenPop_eq_some_iff {point next : MPMCPoint T} :
    point.wokenPop = some next ↔ point = .blockedPop ∧ next = .locking .pop := by
  cases point <;> simp [wokenPop, eq_comm]

theorem wokenPop_eq_none_iff : point.wokenPop = none ↔ ¬point.waitsPop := by
  cases point <;> simp [wokenPop]

theorem wokenPush_eq_some_iff {point next : MPMCPoint T} :
    point.wokenPush = some next ↔
      ∃ item, point = .blockedPush item ∧ next = .locking (.push item) := by
  cases point <;> simp [wokenPush, eq_comm]

theorem wokenPush_eq_none_iff :
    point.wokenPush = none ↔ ¬point.waitsPush := by
  cases point <;> simp [wokenPush]

/-- A thread that has pushed an item notifies one thread in `pop`. -/
theorem Remembers.notifyNotEmpty (remembers : Remembers run.queue run.points)
    (point : run.points thread = .notifyNotEmpty) (woken : Fin threads) :
    Remembers run.queue
      (Function.update (run.notifyOne wokenPop woken).points thread .outside) := by
  rcases run.notifyOne_cases wokenPop woken with ⟨same, nobody⟩ | ⟨other, next, wakes, same⟩
  · rw [same]
    have none : ∀ id, ¬(Function.update run.points thread .outside id).waitsPop := by
      intro id waits
      obtain ⟨other, blocked⟩ := exists_of_exists_update (by simp) ⟨id, waits⟩
      exact wokenPop_eq_none_iff.mp (nobody other) blocked
    exact ⟨served_of_none none, remembers.slots.move id (by simp [point]), announced_of_none none,
      remembers.pushers.move id (by simp [point])⟩
  · obtain ⟨blocked, rfl⟩ := wokenPop_eq_some_iff.mp wakes
    have different : thread ≠ other := fun here => by
      rw [here, blocked] at point
      contradiction
    have here : Function.update run.points other (.locking .pop) thread = .notifyNotEmpty := by
      rw [Function.update_of_ne different, point]
    rw [same]
    -- the woken thread now speaks for the item that this one has announced
    have spoken : Served waitsPop speaksForItem (run.queue.buffer.length + 1)
        (Function.update run.points other (.locking .pop)) :=
      remembers.items.move id (by simp [blocked])
    have awake : Remembers run.queue (Function.update run.points other (.locking .pop)) := by
      apply remembers.move <;> simp [blocked]
    exact ⟨spoken.move id (by simp [here]), awake.slots.move id (by simp [here]),
      awake.poppers.move id (by simp [here]), awake.pushers.move id (by simp [here])⟩

/-- A thread that has popped an item notifies one thread in `push`. -/
theorem Remembers.notifyNotFull (remembers : Remembers run.queue run.points)
    (point : run.points thread = .notifyNotFull) (woken : Fin threads) :
    Remembers run.queue
      (Function.update (run.notifyOne wokenPush woken).points thread .outside) := by
  rcases run.notifyOne_cases wokenPush woken with ⟨same, nobody⟩ | ⟨other, next, wakes, same⟩
  · rw [same]
    have none : ∀ id, ¬(Function.update run.points thread .outside id).waitsPush := by
      intro id waits
      obtain ⟨other, blocked⟩ := exists_of_exists_update (by simp) ⟨id, waits⟩
      exact wokenPush_eq_none_iff.mp (nobody other) blocked
    exact ⟨remembers.items.move id (by simp [point]), served_of_none none,
      remembers.poppers.move id (by simp [point]), announced_of_none none⟩
  · obtain ⟨item, blocked, rfl⟩ := wokenPush_eq_some_iff.mp wakes
    have different : thread ≠ other := fun here => by
      rw [here, blocked] at point
      contradiction
    have here : Function.update run.points other (.locking (.push item)) thread =
        .notifyNotFull := by
      rw [Function.update_of_ne different, point]
    rw [same]
    have spoken : Served waitsPush speaksForSlot (run.queue.freeSlots + 1)
        (Function.update run.points other (.locking (.push item))) :=
      remembers.slots.move id (by simp [blocked])
    have awake : Remembers run.queue
        (Function.update run.points other (.locking (.push item))) := by
      apply remembers.move <;> simp [blocked]
    exact ⟨awake.items.move id (by simp [here]), spoken.move id (by simp [here]),
      awake.poppers.move id (by simp [here]), awake.pushers.move id (by simp [here])⟩

/-- `close` notifies all threads in `pop`. -/
theorem Remembers.notifyAllNotEmpty (remembers : Remembers run.queue run.points)
    (point : run.points thread = .notifyAllNotEmpty) :
    Remembers run.queue
      (Function.update (run.notifyAll wokenPop).points thread .notifyAllNotFull) := by
  have here : (run.notifyAll wokenPop).points thread = .notifyAllNotEmpty := by
    simp [notifyAll, point, wokenPop]
  have none : ∀ id, ¬(Function.update (run.notifyAll wokenPop).points thread
      .notifyAllNotFull id).waitsPop := by
    intro id waits
    obtain ⟨other, blocked⟩ := exists_of_exists_update (by simp) ⟨id, waits⟩
    revert blocked
    simp only [notifyAll]
    cases run.points other <;> simp [wokenPop]
  have slots : Served waitsPush speaksForSlot run.queue.freeSlots
      (run.notifyAll wokenPop).points :=
    remembers.slots.map (fun point => point.wokenPop.getD point)
      (fun point => by cases point <;> simp [wokenPop])
      (fun point => by cases point <;> simp [wokenPop])
  have pushers : Announced waitsPush tellsPush (run.queue.closed = true)
      (run.notifyAll wokenPop).points :=
    remembers.pushers.map (fun point => point.wokenPop.getD point)
      (fun point => by cases point <;> simp [wokenPop])
      (fun point => by cases point <;> simp [wokenPop])
  exact ⟨served_of_none none, slots.move id (by simp [here]), announced_of_none none,
    pushers.move id (by simp)⟩

/-- `close` notifies all threads in `push`. -/
theorem Remembers.notifyAllNotFull (remembers : Remembers run.queue run.points)
    (point : run.points thread = .notifyAllNotFull) :
    Remembers run.queue
      (Function.update (run.notifyAll wokenPush).points thread .outside) := by
  have here : (run.notifyAll wokenPush).points thread = .notifyAllNotFull := by
    simp [notifyAll, point, wokenPush]
  have none : ∀ id, ¬(Function.update (run.notifyAll wokenPush).points thread
      .outside id).waitsPush := by
    intro id waits
    obtain ⟨other, blocked⟩ := exists_of_exists_update (by simp) ⟨id, waits⟩
    revert blocked
    simp only [notifyAll]
    cases run.points other <;> simp [wokenPush]
  have items : Served waitsPop speaksForItem run.queue.buffer.length
      (run.notifyAll wokenPush).points :=
    remembers.items.map (fun point => point.wokenPush.getD point)
      (fun point => by cases point <;> simp [wokenPush])
      (fun point => by cases point <;> simp [wokenPush])
  have poppers : Announced waitsPop tellsPop (run.queue.closed = true)
      (run.notifyAll wokenPush).points :=
    remembers.poppers.map (fun point => point.wokenPush.getD point)
      (fun point => by cases point <;> simp [wokenPush])
      (fun point => by cases point <;> simp [wokenPush])
  exact ⟨items.move id (by simp [here]), served_of_none none, poppers.move id (by simp [here]),
    announced_of_none none⟩

/-! ### Whole runs -/

theorem Remembers.go (remembers : Remembers run.queue run.points) (thread woken : Fin threads) :
    Remembers (run.go thread woken).queue (run.go thread woken).points := by
  unfold MPMCRun.go
  cases point : run.points thread with
  | outside => exact remembers
  | locking call => exact remembers.locked point
  | blockedPush item =>
      change Remembers run.queue (Function.update run.points thread (.locking (.push item)))
      apply remembers.move <;> simp [point]
  | blockedPop =>
      change Remembers run.queue (Function.update run.points thread (.locking .pop))
      apply remembers.move <;> simp [point]
  | notifyNotEmpty =>
      have queue := (run.notifyOne_queue wokenPop woken).1
      change Remembers (run.notifyOne wokenPop woken).queue _
      rw [queue]
      exact remembers.notifyNotEmpty point woken
  | notifyNotFull =>
      have queue := (run.notifyOne_queue wokenPush woken).1
      change Remembers (run.notifyOne wokenPush woken).queue _
      rw [queue]
      exact remembers.notifyNotFull point woken
  | notifyAllNotEmpty => exact remembers.notifyAllNotEmpty point
  | notifyAllNotFull => exact remembers.notifyAllNotFull point

theorem Remembers.step (remembers : Remembers run.queue run.points)
    (event : MPMCEvent T threads) :
    Remembers (run.step event).queue (run.step event).points := by
  cases event with
  | go thread woken => exact remembers.go thread woken
  | call thread call =>
      rw [MPMCRun.step]
      split
      · rename_i point
        change Remembers run.queue (Function.update run.points thread (.locking call))
        apply remembers.move <;> simp [point]
      · exact remembers

theorem remembers_run (capacity : Nat) (positive : 0 < capacity)
    (events : List (MPMCEvent T threads)) :
    Remembers (Schedule.run step (initial capacity positive threads) events).queue
      (Schedule.run step (initial capacity positive threads) events).points := by
  refine Schedule.run_invariant
    (P := fun run : MPMCRun T threads => Remembers run.queue run.points)
    (fun run event known => known.step event) ?_ events
  have none : ∀ id, ¬((initial capacity positive threads : MPMCRun T threads).points id).waitsPop :=
    fun _ => id
  have none' : ∀ id,
      ¬((initial capacity positive threads : MPMCRun T threads).points id).waitsPush :=
    fun _ => id
  exact ⟨served_of_none none, served_of_none none', announced_of_none none,
    announced_of_none none'⟩

/-- In a state in which every thread is blocked or outside, no thread is blocked in vain: who
is blocked in `pop` finds the queue open and empty, who is blocked in `push` finds it open
and full. -/
theorem blocked_of_resting (capacity : Nat) (positive : 0 < capacity) (threads : Nat)
    (events : List (MPMCEvent T threads)) :
    let run := Schedule.run step (initial capacity positive threads) events
    (∀ thread, (run.points thread).resting) →
      (∀ thread, run.points thread = .blockedPop →
        run.queue.buffer = [] ∧ run.queue.closed = false) ∧
      ∀ thread item, run.points thread = .blockedPush item →
        run.queue.capacity ≤ run.queue.buffer.length ∧ run.queue.closed = false := by
  intro run resting
  have remembers : Remembers run.queue run.points := remembers_run capacity positive events
  refine ⟨fun thread blocked => ⟨?_, ?_⟩, fun thread item blocked => ?_⟩
  · have stored := remembers.items ⟨thread, by rw [blocked]; trivial⟩
    rw [Finset.sum_eq_zero (fun id _ => (idle_of_resting (resting id)).1)] at stored
    exact List.length_eq_zero_iff.mp (Nat.le_zero.mp stored)
  · by_contra closed
    obtain ⟨closer, tells⟩ := remembers.poppers (Bool.eq_true_of_not_eq_false closed)
      ⟨thread, by rw [blocked]; trivial⟩
    exact (idle_of_resting (resting closer)).2.2.1 tells
  · have opened : run.queue.closed = false := by
      by_contra closed
      obtain ⟨closer, tells⟩ := remembers.pushers (Bool.eq_true_of_not_eq_false closed)
        ⟨thread, by rw [blocked]; trivial⟩
      exact (idle_of_resting (resting closer)).2.2.2 tells
    have free := remembers.slots ⟨thread, by rw [blocked]; trivial⟩
    rw [Finset.sum_eq_zero (fun id _ => (idle_of_resting (resting id)).2.1), MPMCQueue.freeSlots,
      opened] at free
    exact ⟨Nat.sub_eq_zero_iff_le.mp (Nat.le_zero.mp free), opened⟩

/-- A thread that waits for an item on an empty queue. -/
theorem blocked_of_resting_pop :
    let run := Schedule.run step (initial 1 (by decide) 2 : MPMCRun Nat 2)
      [.call 0 .pop, .go 0 1, .call 1 .tryPop, .go 1 0]
    run.points 0 = .blockedPop ∧ run.queue.buffer = [] ∧ run.queue.closed = false := by
  intro run
  have resting : ∀ thread, (run.points thread).resting :=
    Fin.forall_fin_two.mpr ⟨trivial, trivial⟩
  have blocked : run.points 0 = .blockedPop := rfl
  exact ⟨blocked, (blocked_of_resting 1 (by decide) 2 _ resting).1 0 blocked⟩

end MPMCRun

end Lob
