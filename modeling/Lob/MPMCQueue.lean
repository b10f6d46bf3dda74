import Mathlib.Data.List.Basic

/-!
# The multi-producer multi-consumer queue

`MPMCQueue` guards a bounded deque with one mutex. Each function below is one section
under this mutex, from the moment its wait is over. A call that has to wait on `not_full_`
or `not_empty_` is `none`: it changes nothing and tests its condition again later.
-/

namespace Lob

/-- `class MPMCQueue`; the constructor throws for a capacity of zero. -/
structure MPMCQueue (T : Type) where
  capacity : Nat
  positive : 0 < capacity
  buffer : List T := []
  highWatermark : Nat := 0
  closed : Bool := false

namespace MPMCQueue

variable {T : Type} {queue queue' : MPMCQueue T}

/-- The insertion that `push` and `try_push` share. -/
def pushBack (queue : MPMCQueue T) (item : T) : MPMCQueue T :=
  { queue with
    buffer := queue.buffer ++ [item]
    highWatermark := max queue.highWatermark (queue.buffer.length + 1) }

/-- `MPMCQueue::push`. -/
def push (queue : MPMCQueue T) (item : T) : Option (MPMCQueue T × Bool) :=
  if queue.closed || decide (queue.buffer.length < queue.capacity) then
    some (if queue.closed then (queue, false) else (queue.pushBack item, true))
  else none

/-- `MPMCQueue::try_push`. -/
def tryPush (queue : MPMCQueue T) (item : T) : MPMCQueue T × Bool :=
  if queue.closed || decide (queue.buffer.length ≥ queue.capacity) then (queue, false)
  else (queue.pushBack item, true)

/-- `MPMCQueue::pop`; the item is missing if the queue is closed and drained. -/
def pop (queue : MPMCQueue T) : Option (MPMCQueue T × Option T) :=
  if queue.closed || !queue.buffer.isEmpty then
    some (match queue.buffer with
      | [] => (queue, none)
      | item :: rest => ({ queue with buffer := rest }, some item))
  else none

/-- `MPMCQueue::try_pop`; the item is missing if the queue is empty. -/
def tryPop (queue : MPMCQueue T) : MPMCQueue T × Option T :=
  match queue.buffer with
  | [] => (queue, none)
  | item :: rest => ({ queue with buffer := rest }, some item)

/-- `MPMCQueue::close`. -/
def close (queue : MPMCQueue T) : MPMCQueue T := { queue with closed := true }

/-- What a successful insertion needs and does. -/
def Inserts (queue : MPMCQueue T) (item : T) (queue' : MPMCQueue T) : Prop :=
  queue.closed = false ∧ queue.buffer.length < queue.capacity ∧ queue' = queue.pushBack item

/-- A `push` that returns true has inserted its item. -/
theorem inserts_of_push {item : T} (result : queue.push item = some (queue', true)) :
    queue.Inserts item queue' := by
  unfold push at result
  cases closed : queue.closed with
  | true => simp [closed] at result
  | false =>
      by_cases room : queue.buffer.length < queue.capacity
      · simp only [closed, room, decide_true, Bool.or_true, if_true, Bool.false_eq_true, if_false,
          Option.some.injEq, Prod.mk.injEq, and_true] at result
        exact ⟨closed, room, result.symm⟩
      · simp [closed, room] at result

/-- A `try_push` that returns true has inserted its item. -/
theorem inserts_of_tryPush {item : T} (result : queue.tryPush item = (queue', true)) :
    queue.Inserts item queue' := by
  unfold tryPush at result
  split at result
  · exact absurd (Prod.mk.inj result).2 Bool.false_ne_true
  · rename_i room
    simp only [Bool.or_eq_true, decide_eq_true_eq, not_or, Nat.not_le, ge_iff_le] at room
    exact ⟨by simpa using room.1, room.2, (Prod.mk.inj result).1.symm⟩

theorem pop_cases {out : Option T} (result : queue.pop = some (queue', out)) :
    (out = none ∧ queue' = queue ∧ queue.closed = true ∧ queue.buffer = []) ∨
      (∃ item, out = some item ∧ queue.buffer = item :: queue'.buffer ∧
        queue' = { queue with buffer := queue'.buffer }) := by
  unfold pop at result
  split at result
  · rename_i ready
    cases stored : queue.buffer with
    | nil =>
        left
        simp_all
    | cons item rest =>
        right
        simp only [stored, Option.some.injEq, Prod.mk.injEq] at result
        obtain ⟨rfl, rfl⟩ := result
        exact ⟨item, rfl, rfl, rfl⟩
  · contradiction

end MPMCQueue

end Lob
