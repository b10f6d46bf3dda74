import Lob.Library.Schedule
import Lob.MPMCQueue.Threads
import Mathlib.Data.List.Induction

/-!
# The MPMC queue is a bounded FIFO with a clean close

Only sections under the mutex touch the queue, so whatever the threads do, the queue changes
as `Does` says, one outcome of the history at a time. The items popped so far followed by the
buffer are always the items pushed so far. Nothing is pushed after a close, and a `pop` that
returns false has nothing left to pop.
-/

namespace Lob

variable {T : Type} {threads : Nat}

/-! ### Outcomes -/

def MPMCOutcome.pushedItem : MPMCOutcome T → Option T
  | .pushed item => some item
  | _ => none

def MPMCOutcome.poppedItem : MPMCOutcome T → Option T
  | .popped item => some item
  | _ => none

/-- The items pushed, in the order of their insertion. -/
def pushedItems (history : List (MPMCOutcome T)) : List T :=
  history.filterMap MPMCOutcome.pushedItem

/-- The items popped, in the order of their removal. -/
def poppedItems (history : List (MPMCOutcome T)) : List T :=
  history.filterMap MPMCOutcome.poppedItem

theorem pushedItems_concat (history : List (MPMCOutcome T)) (outcome : MPMCOutcome T) :
    pushedItems (history ++ [outcome]) = pushedItems history ++ outcome.pushedItem.toList := by
  rw [pushedItems, List.filterMap_append]
  cases outcome <;> rfl

theorem poppedItems_concat (history : List (MPMCOutcome T)) (outcome : MPMCOutcome T) :
    poppedItems (history ++ [outcome]) = poppedItems history ++ outcome.poppedItem.toList := by
  rw [poppedItems, List.filterMap_append]
  cases outcome <;> rfl

/-- What must have happened before an outcome. -/
def MPMCOutcome.JustifiedBy (before : List (MPMCOutcome T)) : MPMCOutcome T → Prop
  | .pushed _ => .closed ∉ before
  | .drained => .closed ∈ before ∧ pushedItems before = poppedItems before
  | _ => True

/-- What an outcome needs of the queue and does to it. -/
inductive MPMCQueue.Does (queue : MPMCQueue T) : MPMCOutcome T → MPMCQueue T → Prop
  | pushed {item : T} {queue' : MPMCQueue T} (inserts : queue.Inserts item queue') :
      Does queue (.pushed item) queue'
  | refused {item : T} : Does queue (.refused item) queue
  | popped {item : T} {rest : List T} (front : queue.buffer = item :: rest) :
      Does queue (.popped item) { queue with buffer := rest }
  | drained (closed : queue.closed = true) (empty : queue.buffer = []) : Does queue .drained queue
  | missed : Does queue .missed queue
  | closed : Does queue .closed queue.close

/-- A step leaves the queue and the history alone or adds one outcome. -/
inductive MPMCRun.Moves (run run' : MPMCRun T threads) : Prop
  | stays (queue : run'.queue = run.queue) (history : run'.history = run.history)
  | settles (outcome : MPMCOutcome T) (does : run.queue.Does outcome run'.queue)
      (history : run'.history = run.history ++ [outcome])

namespace MPMCRun

theorem lock_moves (run : MPMCRun T threads) (thread : Fin threads) (call : MPMCCall T) :
    run.Moves (run.lock thread call) := by
  have settle {queue : MPMCQueue T} {outcome : MPMCOutcome T} {point : MPMCPoint T}
      (result : run.queue.locked call = (queue, some outcome, point))
      (does : run.queue.Does outcome queue) : run.Moves (run.lock thread call) := by
    refine .settles outcome ?_ ?_
    · rw [lock, result]
      exact does
    · rw [lock, result]
      rfl
  have wait {point : MPMCPoint T} (result : run.queue.locked call = (run.queue, none, point)) :
      run.Moves (run.lock thread call) := by
    refine .stays ?_ ?_
    · rw [lock, result]
    · rw [lock, result]
      exact List.append_nil _
  have acts := run.queue.acts_locked call
  generalize result : run.queue.locked call = answer at acts
  cases acts with
  | pushes inserts => exact settle result (.pushed inserts)
  | pushRefused closed => exact settle result .refused
  | pushWaits opened full => exact wait result
  | tryPushes inserts => exact settle result (.pushed inserts)
  | tryPushRefused shut => exact settle result .refused
  | pops front => exact settle result (.popped front)
  | popDrained closed empty => exact settle result (.drained closed empty)
  | popWaits opened empty => exact wait result
  | tryPops front => exact settle result (.popped front)
  | tryPopMisses empty => exact settle result .missed
  | closes => exact settle result .closed

theorem go_moves (run : MPMCRun T threads) (thread woken : Fin threads) :
    run.Moves (run.go thread woken) := by
  unfold go
  cases run.points thread with
  | locking call => exact run.lock_moves thread call
  | notifyNotEmpty =>
      obtain ⟨queue, history⟩ := run.notifyOne_queue MPMCPoint.wokenPop woken
      exact .stays queue history
  | notifyNotFull =>
      obtain ⟨queue, history⟩ := run.notifyOne_queue MPMCPoint.wokenPush woken
      exact .stays queue history
  | outside => exact .stays rfl rfl
  | blockedPush item => exact .stays rfl rfl
  | blockedPop => exact .stays rfl rfl
  | notifyAllNotEmpty => exact .stays rfl rfl
  | notifyAllNotFull => exact .stays rfl rfl

theorem step_moves (run : MPMCRun T threads) (event : MPMCEvent T threads) :
    run.Moves (run.step event) := by
  cases event with
  | go thread woken => exact run.go_moves thread woken
  | call thread call =>
      rw [step]
      split <;> exact .stays rfl rfl

/-! ### The invariant -/

/-- The queue and its history tell the same story. -/
structure Fifo (capacity : Nat) (run : MPMCRun T threads) : Prop where
  capacity : run.queue.capacity = capacity
  order : pushedItems run.history = poppedItems run.history ++ run.queue.buffer
  bounded : run.queue.buffer.length ≤ run.queue.capacity
  closed : run.queue.closed = true ↔ .closed ∈ run.history
  justified : ∀ before outcome after, run.history = before ++ outcome :: after →
    outcome.JustifiedBy before

theorem fifo_initial (capacity : Nat) (positive : 0 < capacity) :
    Fifo capacity (initial capacity positive threads : MPMCRun T threads) where
  capacity := rfl
  order := rfl
  bounded := Nat.zero_le _
  closed := by simp [initial]
  justified before outcome after same := by simp [initial] at same

/-- An outcome that the history so far justifies may be added to it. -/
theorem justified_concat {history : List (MPMCOutcome T)} {last : MPMCOutcome T}
    (justified : ∀ before outcome after, history = before ++ outcome :: after →
      outcome.JustifiedBy before) (here : last.JustifiedBy history) :
    ∀ before outcome after, history ++ [last] = before ++ outcome :: after →
      outcome.JustifiedBy before := by
  intro before outcome after same
  rcases List.eq_nil_or_concat after with rfl | ⟨init, item, rfl⟩
  · obtain ⟨rfl, tail⟩ := List.append_inj' same rfl
    obtain rfl := List.singleton_inj.mp tail
    exact here
  · rw [List.concat_eq_append, ← List.cons_append, ← List.append_assoc] at same
    obtain ⟨earlier, _⟩ := List.append_inj' same rfl
    exact justified before outcome init earlier

variable {capacity : Nat} {run run' : MPMCRun T threads}

/-- An outcome that moves no item. -/
theorem Fifo.order_of_quiet (fifo : Fifo capacity run) {outcome : MPMCOutcome T}
    (pushed : outcome.pushedItem = none) (popped : outcome.poppedItem = none) :
    pushedItems (run.history ++ [outcome]) =
      poppedItems (run.history ++ [outcome]) ++ run.queue.buffer := by
  rw [pushedItems_concat, poppedItems_concat, pushed, popped]
  simpa using fifo.order

/-- An outcome, as the queue and the history after it have it. -/
theorem Fifo.settles (fifo : Fifo capacity run) {outcome : MPMCOutcome T}
    (does : run.queue.Does outcome run'.queue) (history : run'.history = run.history ++ [outcome]) :
    Fifo capacity run' := by
  have order := fifo.order
  have closed := fifo.closed
  obtain ⟨queue', points', history'⟩ := run'
  obtain rfl : history' = run.history ++ [outcome] := history
  change run.queue.Does outcome queue' at does
  cases does with
  | @pushed item _ inserts =>
      obtain ⟨opened, room, rfl⟩ := inserts
      have unclosed : .closed ∉ run.history := fun member => by
        rw [closed.mpr member] at opened
        contradiction
      refine ⟨fifo.capacity, ?_, ?_, ?_, justified_concat fifo.justified unclosed⟩
      · rw [pushedItems_concat, poppedItems_concat, order]
        simp [MPMCOutcome.pushedItem, MPMCOutcome.poppedItem, MPMCQueue.pushBack]
      · simpa [MPMCQueue.pushBack] using Nat.succ_le_of_lt room
      · simpa [MPMCQueue.pushBack] using closed
  | refused =>
      exact ⟨fifo.capacity, fifo.order_of_quiet rfl rfl, fifo.bounded, by simpa using closed,
        justified_concat fifo.justified trivial⟩
  | @popped item rest front =>
      have bounded := fifo.bounded
      rw [front] at order bounded
      refine ⟨fifo.capacity, ?_, Nat.le_of_succ_le bounded, by simpa using closed,
        justified_concat fifo.justified trivial⟩
      rw [pushedItems_concat, poppedItems_concat, order]
      simp [MPMCOutcome.pushedItem, MPMCOutcome.poppedItem]
  | drained shut empty =>
      have nothing : pushedItems run.history = poppedItems run.history := by
        rw [order, empty, List.append_nil]
      exact ⟨fifo.capacity, fifo.order_of_quiet rfl rfl, fifo.bounded, by simpa using closed,
        justified_concat fifo.justified ⟨closed.mp shut, nothing⟩⟩
  | missed =>
      exact ⟨fifo.capacity, fifo.order_of_quiet rfl rfl, fifo.bounded, by simpa using closed,
        justified_concat fifo.justified trivial⟩
  | closed =>
      exact ⟨fifo.capacity, fifo.order_of_quiet rfl rfl, fifo.bounded, by simp [MPMCQueue.close],
        justified_concat fifo.justified trivial⟩

theorem Fifo.moves (fifo : Fifo capacity run) (moves : run.Moves run') : Fifo capacity run' := by
  cases moves with
  | stays queue history =>
      obtain ⟨same, order, bounded, closed, justified⟩ := fifo
      rw [← history] at order justified
      rw [← queue] at same order bounded
      rw [← queue, ← history] at closed
      exact ⟨same, order, bounded, closed, justified⟩
  | settles outcome does history => exact fifo.settles does history

theorem fifo_run (capacity : Nat) (positive : 0 < capacity) (events : List (MPMCEvent T threads)) :
    Fifo capacity (Schedule.run step (initial capacity positive threads) events) :=
  Schedule.run_invariant (fun run event known => known.moves (run.step_moves event))
    (fifo_initial capacity positive) events

/-! ### The high watermark -/

/-- The watermark rises to the size after a push; no other step raises either of them. -/
theorem Moves.watermark (moves : run.Moves run') :
    run'.queue.highWatermark = max run.queue.highWatermark run'.queue.buffer.length ∨
      (run'.queue.highWatermark = run.queue.highWatermark ∧
        run'.queue.buffer.length ≤ run.queue.buffer.length) := by
  cases moves with
  | stays queue history =>
      rw [queue]
      exact Or.inr ⟨rfl, Nat.le_refl _⟩
  | settles outcome does history =>
      generalize run'.queue = queue' at does ⊢
      cases does with
      | pushed inserts =>
          obtain ⟨_, _, rfl⟩ := inserts
          left
          simp [MPMCQueue.pushBack]
      | popped front =>
          right
          simp [front]
      | refused => exact Or.inr ⟨rfl, Nat.le_refl _⟩
      | drained closed empty => exact Or.inr ⟨rfl, Nat.le_refl _⟩
      | missed => exact Or.inr ⟨rfl, Nat.le_refl _⟩
      | closed => exact Or.inr ⟨rfl, Nat.le_refl _⟩

/-- The watermark is the largest size of all states of the run so far. -/
structure IsMaximum (start : MPMCRun T threads) (events : List (MPMCEvent T threads)) : Prop where
  bound : ∀ front, front <+: events → (Schedule.run step start front).queue.buffer.length ≤
    (Schedule.run step start events).queue.highWatermark
  reached : ∃ front, front <+: events ∧
    (Schedule.run step start front).queue.buffer.length =
      (Schedule.run step start events).queue.highWatermark

theorem isMaximum_run (capacity : Nat) (positive : 0 < capacity)
    (events : List (MPMCEvent T threads)) :
    IsMaximum (initial capacity positive threads) events := by
  induction events using List.reverseRecOn with
  | nil =>
      refine ⟨fun front shorter => ?_, [], List.prefix_rfl, rfl⟩
      rw [List.prefix_nil.mp shorter]
      exact Nat.le_refl _
  | append_singleton events event ih =>
      set start : MPMCRun T threads := initial capacity positive threads with starts
      obtain ⟨bound, longest, shorter, reached⟩ := ih
      have last : Schedule.run step start (events ++ [event]) =
          (Schedule.run step start events).step event := by
        rw [Schedule.run, List.foldl_append]
        rfl
      have here := bound events List.prefix_rfl
      have risen := ((Schedule.run step start events).step_moves event).watermark
      rw [← last] at risen
      refine ⟨fun front before => ?_, ?_⟩
      · rcases List.prefix_concat_iff.mp before with rfl | earlier
        · rcases risen with rises | ⟨same, smaller⟩ <;> omega
        · have smaller := bound front earlier
          rcases risen with rises | ⟨same, _⟩ <;> omega
      · by_cases larger : (Schedule.run step start (events ++ [event])).queue.highWatermark =
            (Schedule.run step start events).queue.highWatermark
        · exact ⟨longest, shorter.trans (List.prefix_append _ _), reached.trans larger.symm⟩
        · refine ⟨_, List.prefix_rfl, ?_⟩
          rcases risen with rises | ⟨same, _⟩ <;> omega

/-! ### Whole runs -/

/-- A push that fails leaves the queue as it was. -/
theorem queue_of_refused (run : MPMCRun T threads) {event : MPMCEvent T threads} {item : T}
    (refused : (run.step event).history = run.history ++ [.refused item]) :
    (run.step event).queue = run.queue := by
  cases run.step_moves event with
  | stays queue history => exact queue
  | settles outcome does history =>
      obtain rfl := List.singleton_inj.mp (List.append_cancel_left (history.symm.trans refused))
      generalize (run.step event).queue = queue' at does
      cases does
      rfl

/-- Bounded exactly-once FIFO with a clean close, for any number of threads and every
interleaving: what was popped, followed by the buffer, is what was pushed; the buffer never
exceeds the capacity and the watermark is its largest size; nothing is pushed after a close,
a failed push changes nothing, and `pop` returns false only when the queue is closed and
everything has been popped. -/
theorem bounded_exactly_once_fifo (capacity : Nat) (positive : 0 < capacity) (threads : Nat)
    (events : List (MPMCEvent T threads)) :
    let start : MPMCRun T threads := initial capacity positive threads
    let run := Schedule.run step start events
    pushedItems run.history = poppedItems run.history ++ run.queue.buffer ∧
      run.queue.buffer.length ≤ capacity ∧
      IsMaximum start events ∧
      (∀ before item after, run.history = before ++ .pushed item :: after → .closed ∉ before) ∧
      (∀ event item, (run.step event).history = run.history ++ [.refused item] →
        (run.step event).queue = run.queue) ∧
      ∀ before after, run.history = before ++ .drained :: after →
        .closed ∈ before ∧ pushedItems before = poppedItems before := by
  intro start run
  have fifo : Fifo capacity run := fifo_run capacity positive events
  refine ⟨fifo.order, fifo.capacity ▸ fifo.bounded, isMaximum_run capacity positive events, ?_,
    fun _ _ => run.queue_of_refused, ?_⟩
  · intro before item after same
    exact fifo.justified before (.pushed item) after same
  · intro before after same
    exact fifo.justified before .drained after same

/-- One thread pushes, the other one closes and drains the queue. -/
theorem bounded_exactly_once_fifo_drained :
    let events : List (MPMCEvent Nat 2) :=
      [.call 0 (.push 7), .go 0 0, .go 0 1, .call 1 .close, .go 1 0, .go 1 0, .go 1 0,
        .call 0 (.push 8), .go 0 0, .call 1 .pop, .go 1 0, .go 1 0, .call 1 .pop, .go 1 0]
    let run := Schedule.run step (initial 1 (by decide) 2) events
    run.history = [.pushed 7, .closed, .refused 8, .popped 7, .drained] ∧
      pushedItems run.history = poppedItems run.history ++ run.queue.buffer :=
  ⟨rfl, (bounded_exactly_once_fifo 1 (by decide) 2 _).1⟩

end MPMCRun

end Lob
