import Mathlib.Logic.Function.Basic
import Mathlib.Order.Lattice
import Mathlib.Order.Nat

/-!
# Release and acquire

A memory for threads that synchronise by release stores and acquire loads and keep everything
else in plain cells. The stores to an atomic location are numbered in their modification order.
A load may return every store that is not older than one the thread knows of. A release store
carries the view of its thread along, and an acquire load takes over the view of the store that
it reads.

A view also counts the accesses of every thread to plain cells. An access happens before
whatever its stamp has reached, and two accesses of different threads to one cell, of which at
least one is a write, race if the earlier one does not happen before the later one.

Every location has an owner, the only thread that stores to it. If all other threads load it
with acquire, no cycle of program order and reads-from can arise, so nothing is lost by taking
the accesses one after the other, with loads that may be stale.
-/

namespace ReleaseAcquire

/-- What a thread knows: of every location, the number of the oldest store that it may still
read, and of every thread, how many of its accesses have happened before. -/
abbrev View (τ Λ : Type) := (Λ → Nat) × (τ → Nat)

/-- The view of a thread that has made one more access. -/
def View.tick {τ Λ : Type} [DecidableEq τ] (view : View τ Λ) (thread : τ) : View τ Λ :=
  (view.1, Function.update view.2 thread (view.2 thread + 1))

/-- A store, with the view that it releases. -/
structure Message (τ Λ α : Type) where
  value : α
  view : View τ Λ

/-- An access to a plain cell. -/
structure Access (τ : Type) where
  thread : τ
  stamp : Nat
  isWrite : Bool

structure Memory (τ Λ α : Type) {σ : Type} (V : σ → Type) where
  /-- the stores to a location; those behind the newest one mean nothing -/
  message : Λ → Nat → Message τ Λ α
  newest : Λ → Nat
  views : τ → View τ Λ
  cells : (cell : σ) → V cell
  accesses : σ → List (Access τ)
  raced : Bool

variable {τ Λ α σ : Type} {V : σ → Type}

namespace Memory

/-- Every location holds its initial store, every cell its initial value. -/
def initial (value : Λ → α) (cells : (cell : σ) → V cell) : Memory τ Λ α V where
  message location _ := ⟨value location, ⊥, ⊥⟩
  newest _ := 0
  views _ := (⊥, ⊥)
  cells := cells
  accesses _ := []
  raced := false

/-- The store that a load returns; every one that the thread may read is picked by some
number. -/
def picked (memory : Memory τ Λ α V) (thread : τ) (location : Λ) (pick : Nat) : Nat :=
  min ((memory.views thread).1 location + pick) (memory.newest location)

variable [DecidableEq τ] [DecidableEq Λ] [DecidableEq σ]

/-- `load(memory_order_acquire)`. -/
def loadAcquire (memory : Memory τ Λ α V) (thread : τ) (location : Λ) (pick : Nat) :
    Memory τ Λ α V × α :=
  let message := memory.message location (memory.picked thread location pick)
  ({ memory with
      views := Function.update memory.views thread (memory.views thread ⊔ message.view) },
    message.value)

/-- `load(memory_order_relaxed)`. -/
def loadRelaxed (memory : Memory τ Λ α V) (thread : τ) (location : Λ) (pick : Nat) :
    Memory τ Λ α V × α :=
  let index := memory.picked thread location pick
  let view := memory.views thread
  ({ memory with
      views :=
        Function.update memory.views thread (Function.update view.1 location index, view.2) },
    (memory.message location index).value)

/-- `store(memory_order_release)`. -/
def storeRelease (memory : Memory τ Λ α V) (thread : τ) (location : Λ) (value : α) :
    Memory τ Λ α V :=
  let index := memory.newest location + 1
  let view := (Function.update (memory.views thread).1 location index, (memory.views thread).2)
  { memory with
    message := Function.update memory.message location
      (Function.update (memory.message location) index ⟨value, view⟩)
    newest := Function.update memory.newest location index
    views := Function.update memory.views thread view }

/-- The access does not happen before what the thread does now. -/
def unordered (memory : Memory τ Λ α V) (thread : τ) (isWrite : Bool) (access : Access τ) :
    Bool :=
  (isWrite || access.isWrite) && decide (access.thread ≠ thread) &&
    decide ((memory.views thread).2 access.thread < access.stamp)

/-- Note an access to a cell, and whether it races with an earlier one. -/
def access (memory : Memory τ Λ α V) (thread : τ) (cell : σ) (isWrite : Bool) :
    Memory τ Λ α V :=
  let view := (memory.views thread).tick thread
  { memory with
    views := Function.update memory.views thread view
    accesses := Function.update memory.accesses cell
      (⟨thread, view.2 thread, isWrite⟩ :: memory.accesses cell)
    raced := memory.raced || (memory.accesses cell).any (memory.unordered thread isWrite) }

def read (memory : Memory τ Λ α V) (thread : τ) (cell : σ) : Memory τ Λ α V × V cell :=
  (memory.access thread cell false, memory.cells cell)

def write (memory : Memory τ Λ α V) (thread : τ) (cell : σ) (value : V cell) :
    Memory τ Λ α V :=
  { memory.access thread cell true with cells := Function.update memory.cells cell value }

end Memory

/-! ### Views -/

section Views

theorem View.tick_clock [DecidableEq τ] (view : View τ Λ) (thread : τ) :
    (View.tick view thread).2 thread = view.2 thread + 1 := Function.update_self _ _ _

theorem View.tick_clock_of_ne [DecidableEq τ] (view : View τ Λ) {thread other : τ}
    (different : other ≠ thread) : (View.tick view thread).2 other = view.2 other :=
  Function.update_of_ne different _ _

theorem View.le_tick [DecidableEq τ] (view : View τ Λ) (thread : τ) :
    view ≤ View.tick view thread := by
  refine ⟨le_rfl, fun other => ?_⟩
  by_cases same : other = thread
  · rw [same, View.tick_clock]
    exact Nat.le_succ _
  · rw [View.tick_clock_of_ne view same]

variable {memory next : Memory τ Λ α V} {view other : View τ Λ}

/-- A later memory: stores stay as they are and views grow. -/
structure Extends (memory next : Memory τ Λ α V) : Prop where
  message : ∀ location index, index ≤ memory.newest location →
    next.message location index = memory.message location index
  newest : ∀ location, memory.newest location ≤ next.newest location
  views : ∀ thread, memory.views thread ≤ next.views thread

theorem extends_refl (memory : Memory τ Λ α V) : Extends memory memory :=
  ⟨fun _ _ _ => rfl, fun _ => le_rfl, fun _ => le_rfl⟩

/-- A view that knows only stores that exist, and has taken over all that it may not read any
more. -/
structure Closed (memory : Memory τ Λ α V) (view : View τ Λ) : Prop where
  seen : ∀ location, view.1 location ≤ memory.newest location
  taken : ∀ location index, index ≤ view.1 location →
    (memory.message location index).view ≤ view

theorem Closed.sup (closed : Closed memory view) (closed' : Closed memory other) :
    Closed memory (view ⊔ other) where
  seen location := sup_le (closed.seen location) (closed'.seen location)
  taken location index known := by
    rcases le_sup_iff.mp known with left | right
    · exact (closed.taken location index left).trans le_sup_left
    · exact (closed'.taken location index right).trans le_sup_right

theorem Closed.extends (closed : Closed memory view) (later : Extends memory next) :
    Closed next view where
  seen location := (closed.seen location).trans (later.newest location)
  taken location index known := by
    rw [later.message location index (known.trans (closed.seen location))]
    exact closed.taken location index known

end Views

/-- What the views look like in a program in which every location has an owner. -/
structure Sound (owner : Λ → τ) (memory : Memory τ Λ α V) : Prop where
  closed : ∀ thread, Closed memory (memory.views thread)
  own : ∀ location, (memory.views (owner location)).1 location = memory.newest location
  clock : ∀ thread other, (memory.views thread).2 other ≤ (memory.views other).2 other
  released : ∀ location index, index ≤ memory.newest location →
    Closed memory (memory.message location index).view
  carried : ∀ location index, index ≤ memory.newest location →
    (memory.message location index).view ≤ memory.views (owner location)
  indexed : ∀ location index, index ≤ memory.newest location →
    (memory.message location index).view.1 location = index
  stamps : ∀ cell, ∀ access ∈ memory.accesses cell,
    access.stamp ≤ (memory.views access.thread).2 access.thread

section Sound

variable {owner : Λ → τ} {memory next : Memory τ Λ α V} {thread : τ} {location : Λ} {pick : Nat}

theorem sound_initial (owner : Λ → τ) (value : Λ → α) (cells : (cell : σ) → V cell) :
    Sound owner (Memory.initial value cells : Memory τ Λ α V) where
  closed _ := ⟨fun _ => Nat.zero_le _, fun _ _ _ => le_rfl⟩
  own _ := rfl
  clock _ _ := le_rfl
  released _ _ _ := ⟨fun _ => Nat.zero_le _, fun _ _ _ => le_rfl⟩
  carried _ _ _ := le_rfl
  indexed _ _ oldest := (Nat.le_zero.mp oldest).symm
  stamps _ _ member := absurd member List.not_mem_nil

/-- What a thread may not read any more, it has taken over. -/
theorem Sound.taken (sound : Sound owner memory) {index : Nat}
    (known : index ≤ (memory.views thread).1 location) :
    (memory.message location index).view ≤ memory.views thread :=
  (sound.closed thread).taken location index known

theorem picked_le (memory : Memory τ Λ α V) (thread : τ) (location : Λ) (pick : Nat) :
    memory.picked thread location pick ≤ memory.newest location := Nat.min_le_right _ _

theorem Sound.le_picked (sound : Sound owner memory) (thread : τ) (location : Λ) (pick : Nat) :
    (memory.views thread).1 location ≤ memory.picked thread location pick :=
  Nat.le_min.mpr ⟨Nat.le_add_right _ _, (sound.closed thread).seen location⟩

/-- An owner reads its own newest store. -/
theorem Sound.picked_own (sound : Sound owner memory) (location : Λ) (pick : Nat) :
    memory.picked (owner location) location pick = memory.newest location := by
  refine Nat.le_antisymm (picked_le memory _ _ _) ?_
  rw [← sound.own location]
  exact sound.le_picked (owner location) location pick

variable [DecidableEq τ]

theorem extends_of_view {view : View τ Λ} (message : next.message = memory.message)
    (newest : next.newest = memory.newest)
    (views : next.views = Function.update memory.views thread view)
    (grows : memory.views thread ≤ view) : Extends memory next where
  message location index _ := by rw [message]
  newest location := by rw [newest]
  views other := by
    rw [views]
    by_cases same : other = thread
    · subst same
      rwa [Function.update_self]
    · rw [Function.update_of_ne same]

/-- A step that changes the view of its thread only, and notes an access or not. -/
theorem Sound.setView (sound : Sound owner memory) {view : View τ Λ}
    (message : next.message = memory.message) (newest : next.newest = memory.newest)
    (views : next.views = Function.update memory.views thread view)
    (grows : memory.views thread ≤ view) (closed : Closed memory view)
    (clock : ∀ other, other ≠ thread → view.2 other ≤ (memory.views other).2 other)
    (stamps : ∀ cell, ∀ access ∈ next.accesses cell,
      access.stamp ≤ (next.views access.thread).2 access.thread) : Sound owner next := by
  have later := extends_of_view message newest views grows
  have atThread : next.views thread = view := by rw [views, Function.update_self]
  have elsewhere {other : τ} (different : other ≠ thread) :
      next.views other = memory.views other := by rw [views, Function.update_of_ne different]
  refine ⟨fun other => ?_, fun location => ?_, fun one other => ?_, fun location index old => ?_,
    fun location index old => ?_, fun location index old => ?_, stamps⟩
  · by_cases same : other = thread
    · rw [same, atThread]
      exact closed.extends later
    · rw [elsewhere same]
      exact (sound.closed other).extends later
  · rw [newest]
    by_cases same : owner location = thread
    · have own := sound.own location
      rw [same] at own ⊢
      rw [atThread]
      exact Nat.le_antisymm (closed.seen location) (own ▸ grows.1 location)
    · rw [elsewhere same, sound.own]
  · by_cases same : one = thread
    · by_cases same' : other = thread
      · rw [same, same']
      · rw [same, atThread, elsewhere same']
        exact clock other same'
    · rw [elsewhere same]
      exact (sound.clock one other).trans ((later.views other).2 other)
  · rw [newest] at old
    rw [message]
    exact (sound.released location index old).extends later
  · rw [newest] at old
    rw [message]
    exact (sound.carried location index old).trans (later.views _)
  · rw [newest] at old
    rw [message]
    exact sound.indexed location index old

/-! #### Loads -/

theorem extends_loadAcquire (memory : Memory τ Λ α V) (thread : τ) (location : Λ) (pick : Nat) :
    Extends memory (memory.loadAcquire thread location pick).1 :=
  extends_of_view rfl rfl rfl le_sup_left

theorem Sound.loadAcquire (sound : Sound owner memory) (thread : τ) (location : Λ) (pick : Nat) :
    Sound owner (memory.loadAcquire thread location pick).1 := by
  have old := picked_le memory thread location pick
  refine sound.setView rfl rfl rfl le_sup_left
    ((sound.closed thread).sup (sound.released location _ old)) (fun other _ => ?_)
    (fun cell access member => ?_)
  · exact sup_le (sound.clock thread other)
      (((sound.carried location _ old).2 other).trans (sound.clock _ other))
  · exact (sound.stamps cell access member).trans
      (((extends_loadAcquire memory thread location pick).views access.thread).2 access.thread)

/-- After an acquire load the thread knows the store that it has read. -/
theorem Sound.picked_le_seen (sound : Sound owner memory) (thread : τ) (location : Λ)
    (pick : Nat) : memory.picked thread location pick ≤
      ((memory.loadAcquire thread location pick).1.views thread).1 location := by
  have indexed := sound.indexed location _ (picked_le memory thread location pick)
  have taken : (memory.message location (memory.picked thread location pick)).view ≤
      (memory.loadAcquire thread location pick).1.views thread := by
    simp only [Memory.loadAcquire, Function.update_self]
    exact le_sup_right
  exact indexed.symm.le.trans (taken.1 location)

/-! #### Plain cells -/

section Cells

variable [DecidableEq σ] {cell : σ} {isWrite : Bool}

theorem extends_access (memory : Memory τ Λ α V) (thread : τ) (cell : σ) (isWrite : Bool) :
    Extends memory (memory.access thread cell isWrite) :=
  extends_of_view rfl rfl rfl (View.le_tick _ thread)

theorem Sound.access (sound : Sound owner memory) (thread : τ) (cell : σ) (isWrite : Bool) :
    Sound owner (memory.access thread cell isWrite) := by
  have grows := View.le_tick (memory.views thread) thread
  refine sound.setView rfl rfl rfl grows
    ⟨(sound.closed thread).seen, fun location index known => ?_⟩ (fun other different => ?_)
    (fun cell' access member => ?_)
  · exact (sound.taken known).trans grows
  · rw [View.tick_clock_of_ne _ different]
    exact sound.clock thread other
  · have older : access ∈ memory.accesses cell' →
        access.stamp ≤ ((memory.access thread cell isWrite).views access.thread).2 access.thread :=
      fun before => (sound.stamps cell' access before).trans
        (((extends_access memory thread cell isWrite).views access.thread).2 access.thread)
    by_cases same : cell' = cell
    · subst same
      simp only [Memory.access, Function.update_self, List.mem_cons] at member
      rcases member with rfl | before
      · simp only [Memory.access, Function.update_self, le_refl]
      · exact older before
    · simp only [Memory.access, Function.update_of_ne same] at member
      exact older member

theorem accesses_access_of_ne (memory : Memory τ Λ α V) (thread : τ) {other : σ} (isWrite : Bool)
    (different : other ≠ cell) :
    (memory.access thread cell isWrite).accesses other = memory.accesses other :=
  Function.update_of_ne different _ _

/-- What an access adds to the accesses of a cell. -/
theorem mem_accesses_access {other : σ} {access : Access τ}
    (member : access ∈ (memory.access thread cell isWrite).accesses other) :
    access ∈ memory.accesses other ∨
      other = cell ∧ access.thread = thread ∧ access.isWrite = isWrite := by
  by_cases same : other = cell
  · subst same
    simp only [Memory.access, Function.update_self, List.mem_cons] at member
    rcases member with rfl | before
    · exact .inr ⟨rfl, rfl, rfl⟩
    · exact .inl before
  · rw [accesses_access_of_ne memory thread isWrite same] at member
    exact .inl member

/-- An access that all conflicting ones happen before does not race. -/
theorem raced_access (ordered : ∀ access ∈ memory.accesses cell,
      (isWrite = true ∨ access.isWrite = true) → access.thread ≠ thread →
        access.stamp ≤ (memory.views thread).2 access.thread) :
    (memory.access thread cell isWrite).raced = memory.raced := by
  have none : (memory.accesses cell).any (memory.unordered thread isWrite) = false := by
    rw [List.any_eq_false]
    intro access member conflict
    simp only [Memory.unordered, Bool.and_eq_true, Bool.or_eq_true, decide_eq_true_eq] at conflict
    exact absurd (ordered access member conflict.1.1 conflict.1.2) (Nat.not_le.mpr conflict.2)
  rw [Memory.access, none, Bool.or_false]

theorem extends_write (memory : Memory τ Λ α V) (thread : τ) (cell : σ) (value : V cell) :
    Extends memory (memory.write thread cell value) where
  message _ _ _ := rfl
  newest _ := le_rfl
  views := (extends_access memory thread cell true).views

theorem Sound.write (sound : Sound owner memory) (thread : τ) (cell : σ) (value : V cell) :
    Sound owner (memory.write thread cell value) := by
  have noted := sound.access thread cell true
  exact noted.setView rfl rfl (Function.update_eq_self thread _).symm le_rfl
    (noted.closed thread) (fun other _ => noted.clock thread other) noted.stamps

end Cells

/-! #### Stores -/

variable [DecidableEq Λ]

/-- A relaxed load by the owner changes nothing. -/
theorem Sound.loadRelaxed_own (sound : Sound owner memory) (location : Λ) (pick : Nat) :
    memory.loadRelaxed (owner location) location pick =
      (memory, (memory.message location (memory.newest location)).value) := by
  simp only [Memory.loadRelaxed, sound.picked_own]
  rw [← sound.own location, Function.update_eq_self, Function.update_eq_self]

section Stores

variable (memory thread location) (value : α)

theorem storeRelease_message_newest :
    (memory.storeRelease thread location value).message location (memory.newest location + 1) =
      ⟨value, (memory.storeRelease thread location value).views thread⟩ := by
  simp only [Memory.storeRelease, Function.update_self]

theorem storeRelease_message_of_le {location' : Λ} {index : Nat}
    (old : index ≤ memory.newest location') :
    (memory.storeRelease thread location value).message location' index =
      memory.message location' index := by
  simp only [Memory.storeRelease]
  by_cases same : location' = location
  · subst same
    rw [Function.update_self, Function.update_of_ne (by omega)]
  · rw [Function.update_of_ne same]

theorem storeRelease_newest :
    (memory.storeRelease thread location value).newest location = memory.newest location + 1 :=
  Function.update_self _ _ _

theorem storeRelease_newest_of_ne {location' : Λ} (different : location' ≠ location) :
    (memory.storeRelease thread location value).newest location' = memory.newest location' :=
  Function.update_of_ne different _ _

theorem storeRelease_views_of_ne {other : τ} (different : other ≠ thread) :
    (memory.storeRelease thread location value).views other = memory.views other :=
  Function.update_of_ne different _ _

theorem storeRelease_seen :
    ((memory.storeRelease thread location value).views thread).1 =
      Function.update (memory.views thread).1 location (memory.newest location + 1) := by
  simp only [Memory.storeRelease, Function.update_self]

theorem storeRelease_clock (other : τ) :
    ((memory.storeRelease thread location value).views other).2 = (memory.views other).2 := by
  by_cases same : other = thread
  · simp only [Memory.storeRelease, same, Function.update_self]
  · rw [storeRelease_views_of_ne memory thread location value same]

end Stores

theorem Sound.extends_storeRelease (sound : Sound owner memory) (location : Λ) (value : α) :
    Extends memory (memory.storeRelease (owner location) location value) where
  message _ _ old := storeRelease_message_of_le memory _ _ value old
  newest location' := by
    by_cases same : location' = location
    · rw [same, storeRelease_newest]
      exact Nat.le_succ _
    · rw [storeRelease_newest_of_ne memory _ _ value same]
  views other := by
    by_cases same : other = owner location
    · rw [same]
      refine ⟨fun location' => ?_, (storeRelease_clock memory _ location value _).ge⟩
      rw [storeRelease_seen]
      by_cases same' : location' = location
      · subst same'
        rw [sound.own, Function.update_self]
        exact Nat.le_succ _
      · rw [Function.update_of_ne same']
    · rw [storeRelease_views_of_ne memory _ _ value same]

/-- A release store of the owner. -/
theorem Sound.storeRelease (sound : Sound owner memory) (location : Λ) (value : α) :
    Sound owner (memory.storeRelease (owner location) location value) := by
  have later := sound.extends_storeRelease location value
  have grown := later.views (owner location)
  have mine := storeRelease_seen memory (owner location) location value
  have others {other : τ} (different : other ≠ owner location) :=
    storeRelease_views_of_ne memory _ location value different
  have stored := storeRelease_message_newest memory (owner location) location value
  have newest := storeRelease_newest memory (owner location) location value
  have newest' {location' : Λ} (different : location' ≠ location) :=
    storeRelease_newest_of_ne memory (owner location) _ value different
  -- the view that is released is closed, with the new store as the only one it adds
  have closed : Closed (memory.storeRelease (owner location) location value)
      ((memory.storeRelease (owner location) location value).views (owner location)) := by
    have before := (sound.closed (owner location)).extends later
    refine ⟨fun location' => ?_, fun location' index known => ?_⟩
    · by_cases same : location' = location
      · rw [same, mine, newest, Function.update_self]
      · rw [mine, Function.update_of_ne same]
        exact before.seen location'
    · by_cases same : location' = location
      · subst same
        rw [mine, Function.update_self] at known
        rcases Nat.lt_or_eq_of_le known with older | rfl
        · exact (before.taken _ index (by rw [sound.own]; omega)).trans grown
        · rw [stored]
      · rw [mine, Function.update_of_ne same] at known
        exact (before.taken location' index known).trans grown
  have split {location' : Λ} {index : Nat}
      (old : index ≤ (memory.storeRelease (owner location) location value).newest location') :
      index ≤ memory.newest location' ∨
        location' = location ∧ index = memory.newest location + 1 := by
    by_cases same : location' = location
    · rw [same, newest] at old
      rw [same]
      exact (Nat.le_or_eq_of_le_succ old).imp_right (fun last => ⟨rfl, last⟩)
    · rw [newest' same] at old
      exact .inl old
  refine ⟨fun other => ?_, fun location' => ?_, fun one other => ?_,
    fun location' index old => ?_, fun location' index old => ?_, fun location' index old => ?_,
    fun cell access member => ?_⟩
  · by_cases same : other = owner location
    · rw [same]
      exact closed
    · rw [others same]
      exact (sound.closed other).extends later
  · by_cases same : location' = location
    · rw [same, mine, newest, Function.update_self]
    · rw [newest' same]
      by_cases same' : owner location' = owner location
      · rw [same', mine, Function.update_of_ne same, ← same', sound.own]
      · rw [others same', sound.own]
  · rw [storeRelease_clock, storeRelease_clock]
    exact sound.clock one other
  · rcases split old with before | ⟨rfl, rfl⟩
    · rw [later.message location' index before]
      exact (sound.released location' index before).extends later
    · rw [stored]
      exact closed
  · rcases split old with before | ⟨rfl, rfl⟩
    · rw [later.message location' index before]
      exact (sound.carried location' index before).trans (later.views _)
    · rw [stored]
  · rcases split old with before | ⟨rfl, rfl⟩
    · rw [later.message location' index before]
      exact sound.indexed location' index before
    · rw [stored, mine, Function.update_self]
  · exact (sound.stamps cell access member).trans ((later.views access.thread).2 access.thread)

end Sound

end ReleaseAcquire
