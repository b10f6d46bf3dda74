import Lob.MPMCQueue

/-!
# The threads of the MPMC queue

Any number of threads call `push`, `try_push`, `pop`, `try_pop` and `close` in any order. A
step is one section under the mutex or one operation of a condition variable. Testing the
predicate and blocking are one section. The notifications come after the mutex has been
released, as steps of their own, so that other threads can act in between. A blocked thread
that steps on its own has woken up spuriously; it locks the mutex and tests again. The set
of threads blocked on a condition variable is the set of threads at its blocked point.

`Acts` lists everything that a section under the mutex can do. The history of outcomes is
not part of the program.
-/

namespace Lob

inductive MPMCCall (T : Type) where
  | push (item : T)
  | tryPush (item : T)
  | pop
  | tryPop
  | close

/-- Where a thread is in its call. -/
inductive MPMCPoint (T : Type) where
  | outside
  /-- about to lock the mutex, at first or after a wakeup -/
  | locking (call : MPMCCall T)
  /-- blocked on `not_full_` -/
  | blockedPush (item : T)
  /-- blocked on `not_empty_` -/
  | blockedPop
  /-- `not_empty_.notify_one()` comes next -/
  | notifyNotEmpty
  /-- `not_full_.notify_one()` comes next -/
  | notifyNotFull
  /-- `not_empty_.notify_all()` comes next, then `not_full_.notify_all()` -/
  | notifyAllNotEmpty
  /-- `not_full_.notify_all()` comes next -/
  | notifyAllNotFull

/-- What a section under the mutex settles. -/
inductive MPMCOutcome (T : Type) where
  | pushed (item : T)
  /-- `push` or `try_push` returns false -/
  | refused (item : T)
  | popped (item : T)
  /-- `pop` returns false -/
  | drained
  /-- `try_pop` returns false -/
  | missed
  | closed

namespace MPMCQueue

variable {T : Type}

/-- The section of a call under the mutex: the queue, what was settled, and where the thread
goes on. A thread that has to wait settles nothing. -/
def locked (queue : MPMCQueue T) :
    MPMCCall T → MPMCQueue T × Option (MPMCOutcome T) × MPMCPoint T
  | .push item =>
      match queue.push item with
      | none => (queue, none, .blockedPush item)
      | some (queue, true) => (queue, some (.pushed item), .notifyNotEmpty)
      | some (queue, false) => (queue, some (.refused item), .outside)
  | .tryPush item =>
      match queue.tryPush item with
      | (queue, true) => (queue, some (.pushed item), .notifyNotEmpty)
      | (queue, false) => (queue, some (.refused item), .outside)
  | .pop =>
      match queue.pop with
      | none => (queue, none, .blockedPop)
      | some (queue, some item) => (queue, some (.popped item), .notifyNotFull)
      | some (queue, none) => (queue, some .drained, .outside)
  | .tryPop =>
      match queue.tryPop with
      | (queue, some item) => (queue, some (.popped item), .notifyNotFull)
      | (queue, none) => (queue, some .missed, .outside)
  | .close => (queue.close, some .closed, .notifyAllNotEmpty)

/-- Everything that a section can do. -/
inductive Acts (queue : MPMCQueue T) :
    MPMCCall T → MPMCQueue T × Option (MPMCOutcome T) × MPMCPoint T → Prop
  | pushes {item : T} {queue' : MPMCQueue T} (inserts : queue.Inserts item queue') :
      Acts queue (.push item) (queue', some (.pushed item), .notifyNotEmpty)
  | pushRefused {item : T} (closed : queue.closed = true) :
      Acts queue (.push item) (queue, some (.refused item), .outside)
  | pushWaits {item : T} (opened : queue.closed = false)
      (full : queue.capacity ≤ queue.buffer.length) :
      Acts queue (.push item) (queue, none, .blockedPush item)
  | tryPushes {item : T} {queue' : MPMCQueue T} (inserts : queue.Inserts item queue') :
      Acts queue (.tryPush item) (queue', some (.pushed item), .notifyNotEmpty)
  | tryPushRefused {item : T}
      (shut : queue.closed = true ∨ queue.capacity ≤ queue.buffer.length) :
      Acts queue (.tryPush item) (queue, some (.refused item), .outside)
  | pops {item : T} {rest : List T} (front : queue.buffer = item :: rest) :
      Acts queue .pop ({ queue with buffer := rest }, some (.popped item), .notifyNotFull)
  | popDrained (closed : queue.closed = true) (empty : queue.buffer = []) :
      Acts queue .pop (queue, some .drained, .outside)
  | popWaits (opened : queue.closed = false) (empty : queue.buffer = []) :
      Acts queue .pop (queue, none, .blockedPop)
  | tryPops {item : T} {rest : List T} (front : queue.buffer = item :: rest) :
      Acts queue .tryPop ({ queue with buffer := rest }, some (.popped item), .notifyNotFull)
  | tryPopMisses (empty : queue.buffer = []) :
      Acts queue .tryPop (queue, some .missed, .outside)
  | closes : Acts queue .close (queue.close, some .closed, .notifyAllNotEmpty)

theorem acts_push (queue : MPMCQueue T) (item : T) :
    queue.Acts (.push item) (queue.locked (.push item)) := by
  rw [locked, push]
  cases closed : queue.closed with
  | true => exact .pushRefused closed
  | false =>
      by_cases room : queue.buffer.length < queue.capacity
      · simp only [room, decide_true, Bool.or_true, if_true, Bool.false_eq_true, if_false]
        exact .pushes ⟨closed, room, rfl⟩
      · simp only [room, decide_false, Bool.or_false, Bool.false_eq_true, if_false]
        exact .pushWaits closed (Nat.le_of_not_lt room)

theorem acts_tryPush (queue : MPMCQueue T) (item : T) :
    queue.Acts (.tryPush item) (queue.locked (.tryPush item)) := by
  rw [locked, tryPush]
  by_cases shut : (queue.closed || decide (queue.buffer.length ≥ queue.capacity)) = true
  · rw [if_pos shut]
    exact .tryPushRefused (by simpa using shut)
  · rw [if_neg shut]
    simp only [Bool.or_eq_true, decide_eq_true_eq, not_or, ge_iff_le, Nat.not_le] at shut
    exact .tryPushes ⟨by simpa using shut.1, shut.2, rfl⟩

theorem acts_pop (queue : MPMCQueue T) : queue.Acts .pop (queue.locked .pop) := by
  rw [locked, pop]
  cases stored : queue.buffer with
  | nil =>
      cases closed : queue.closed with
      | true => exact .popDrained closed stored
      | false => exact .popWaits closed stored
  | cons item rest =>
      simp only [List.isEmpty_cons, Bool.not_false, Bool.or_true, if_true]
      exact .pops stored

theorem acts_tryPop (queue : MPMCQueue T) : queue.Acts .tryPop (queue.locked .tryPop) := by
  rw [locked, tryPop]
  cases stored : queue.buffer with
  | nil => exact .tryPopMisses stored
  | cons item rest => exact .tryPops stored

theorem acts_locked (queue : MPMCQueue T) (call : MPMCCall T) :
    queue.Acts call (queue.locked call) := by
  cases call with
  | push item => exact queue.acts_push item
  | tryPush item => exact queue.acts_tryPush item
  | pop => exact queue.acts_pop
  | tryPop => exact queue.acts_tryPop
  | close => exact .closes

end MPMCQueue

/-! ### The condition variables -/

namespace MPMCPoint

variable {T : Type}

/-- Where a thread goes that is woken on `not_empty_`. -/
def wokenPop : MPMCPoint T → Option (MPMCPoint T)
  | .blockedPop => some (.locking .pop)
  | _ => none

/-- Where a thread goes that is woken on `not_full_`. -/
def wokenPush : MPMCPoint T → Option (MPMCPoint T)
  | .blockedPush item => some (.locking (.push item))
  | _ => none

end MPMCPoint

/-- The queue and its threads. -/
structure MPMCRun (T : Type) (threads : Nat) where
  queue : MPMCQueue T
  points : Fin threads → MPMCPoint T := fun _ => .outside
  history : List (MPMCOutcome T) := []

/-- Whose step is next. A thread that is outside calls an operation; `woken` is the thread
that a `notify_one` of this step picks. -/
inductive MPMCEvent (T : Type) (threads : Nat) where
  | call (thread : Fin threads) (call : MPMCCall T)
  | go (thread woken : Fin threads)

namespace MPMCRun

variable {T : Type} {threads : Nat}

def initial (capacity : Nat) (positive : 0 < capacity) (threads : Nat) : MPMCRun T threads where
  queue := { capacity, positive }

def setPoint (run : MPMCRun T threads) (thread : Fin threads) (point : MPMCPoint T) :
    MPMCRun T threads :=
  { run with points := Function.update run.points thread point }

/-- The thread that `notify_one` wakes: the picked one if it is blocked, else any other. -/
def picked (run : MPMCRun T threads) (wakes : MPMCPoint T → Option (MPMCPoint T))
    (woken : Fin threads) : Option (Fin threads) :=
  if (wakes (run.points woken)).isSome then some woken
  else (List.finRange threads).find? (fun thread => (wakes (run.points thread)).isSome)

def notifyOne (run : MPMCRun T threads) (wakes : MPMCPoint T → Option (MPMCPoint T))
    (woken : Fin threads) : MPMCRun T threads :=
  match run.picked wakes woken with
  | none => run
  | some thread => run.setPoint thread ((wakes (run.points thread)).getD (run.points thread))

theorem notifyOne_queue (run : MPMCRun T threads) (wakes : MPMCPoint T → Option (MPMCPoint T))
    (woken : Fin threads) :
    (run.notifyOne wakes woken).queue = run.queue ∧
      (run.notifyOne wakes woken).history = run.history := by
  rw [notifyOne]
  split <;> exact ⟨rfl, rfl⟩

def notifyAll (run : MPMCRun T threads) (wakes : MPMCPoint T → Option (MPMCPoint T)) :
    MPMCRun T threads :=
  { run with points := fun thread => (wakes (run.points thread)).getD (run.points thread) }

/-- The section of a call under the mutex. -/
def lock (run : MPMCRun T threads) (thread : Fin threads) (call : MPMCCall T) :
    MPMCRun T threads :=
  { queue := (run.queue.locked call).1
    points := Function.update run.points thread (run.queue.locked call).2.2
    history := run.history ++ (run.queue.locked call).2.1.toList }

def go (run : MPMCRun T threads) (thread woken : Fin threads) : MPMCRun T threads :=
  match run.points thread with
  | .outside => run
  | .locking call => run.lock thread call
  | .blockedPush item => run.setPoint thread (.locking (.push item))
  | .blockedPop => run.setPoint thread (.locking .pop)
  | .notifyNotEmpty => (run.notifyOne MPMCPoint.wokenPop woken).setPoint thread .outside
  | .notifyNotFull => (run.notifyOne MPMCPoint.wokenPush woken).setPoint thread .outside
  | .notifyAllNotEmpty => (run.notifyAll MPMCPoint.wokenPop).setPoint thread .notifyAllNotFull
  | .notifyAllNotFull => (run.notifyAll MPMCPoint.wokenPush).setPoint thread .outside

def step (run : MPMCRun T threads) : MPMCEvent T threads → MPMCRun T threads
  | .call thread call =>
      match run.points thread with
      | .outside => run.setPoint thread (.locking call)
      | _ => run
  | .go thread woken => run.go thread woken

end MPMCRun

end Lob
