import Lob.PartitionedMain.Validation

/-!
# What holds in every reachable state of `partitioned_matching_main`

Besides what its validation rests on: the main thread waits for exactly the producer threads
that have not counted themselves, `start` is set when it has gathered them, and it is inside
`waitUntilIdle` only while it drains the engine.
-/

namespace Lob

/-- A producer thread that has not counted itself in `ready` yet. -/
def DriverPoint.unready : DriverPoint → Nat
  | .starting => 1
  | _ => 0

namespace PartitionedMain

variable {args : PartitionedArgs} {state next : PartitionedMain args}

/-- The producer threads that have not counted themselves yet are missing from `ready`. -/
def Gathered (state : PartitionedMain args) : Prop :=
  state.ready + ∑ id, (state.drivers id).unready = args.producers

/-- What holds in every reachable state of the program. -/
structure Runs (state : PartitionedMain args) : Prop where
  proceeds : state.Proceeds
  gathered : state.Gathered
  unstarted : state.start = false → state.main = .gathering
  outside : state.main ≠ .draining → state.engine.waiters args.waiter = .outside

theorem runs_initial (args : PartitionedArgs) : (initial args).Runs where
  proceeds := proceeds_initial args
  gathered := by simp [Gathered, initial, DriverPoint.unready]
  unstarted _ := rfl
  outside _ := rfl

/-- One producer thread goes on. -/
theorem Gathered.walk (gathered : state.Gathered) {id : Fin args.producers} {point : DriverPoint}
    (ready : next.ready + point.unready = state.ready + (state.drivers id).unready)
    (drivers : next.drivers = Function.update state.drivers id point) : next.Gathered := by
  have sum := Waiting.sum_update DriverPoint.unready state.drivers id point
  rw [Gathered] at gathered ⊢
  rw [drivers]
  omega

theorem Gathered.producerStep (gathered : state.Gathered) (id : Fin args.producers)
    (symbol : Fin 8) (draw : Draw 9950 10050 250) :
    (state.producerStep id symbol draw).Gathered := by
  have enqueue (i : Nat) (call : PartitionedCall) (ready : (state.drivers id).unready = 0) :
      (state.enqueueStep id i call).Gathered := by
    refine gathered.walk ?_ rfl
    rw [ready]
    split
    · rfl
    · split <;> rfl
  unfold PartitionedMain.producerStep
  cases point : state.drivers id with
  | starting => exact gathered.walk (by rw [point]; rfl) rfl
  | waiting =>
      dsimp only
      split
      · exact gathered.walk (by rw [point]; rfl) rfl
      · exact gathered
  | generating i =>
      dsimp only
      split
      · exact enqueue i _ (by rw [point]; rfl)
      · exact gathered.walk (by rw [point]; rfl) rfl
  | enqueueing i => exact enqueue i _ (by rw [point]; rfl)
  | failing => exact gathered.walk (by rw [point]; rfl) rfl
  | returned => exact gathered

/-- A producer thread changes the engine by a step of its own, if at all. -/
theorem producerStep_engine (id : Fin args.producers) (symbol : Fin 8)
    (draw : Draw 9950 10050 250) :
    (state.producerStep id symbol draw).start = state.start ∧
      (state.producerStep id symbol draw).main = state.main ∧
      ((state.producerStep id symbol draw).engine = state.engine ∨ ∃ call,
        (state.producerStep id symbol draw).engine = state.engine.step (.producer id call)) := by
  unfold PartitionedMain.producerStep
  cases state.drivers id with
  | waiting =>
      dsimp only
      split <;> exact ⟨rfl, rfl, .inl rfl⟩
  | generating i =>
      dsimp only
      split
      · exact ⟨rfl, rfl, .inr ⟨_, rfl⟩⟩
      · exact ⟨rfl, rfl, .inl rfl⟩
  | enqueueing i => exact ⟨rfl, rfl, .inr ⟨_, rfl⟩⟩
  | _ => exact ⟨rfl, rfl, .inl rfl⟩

/-- Nobody else moves a thread that is outside `waitUntilIdle`. -/
theorem outside_step {engine : PartitionedEngine args.config} {id : Fin args.config.waiters}
    (outside : engine.waiters id = .outside) (event : PartitionedEvent args.config)
    (other : event ≠ .waiter id) : (engine.step event).waiters id = .outside := by
  rcases engine.step_waiters event with same | notified | ⟨waiter, rfl⟩
  · rw [same, outside]
  · rw [notified]
    simp only [PartitionedEngine.notifyAll, outside]
    rfl
  · exact absurd (congrArg PartitionedEvent.waiter (Subsingleton.elim waiter id)) other

theorem mainStep_drivers (state : PartitionedMain args) :
    state.mainStep.drivers = state.drivers ∧ state.mainStep.ready = state.ready := by
  unfold mainStep
  dsimp only
  repeat' split
  all_goals exact ⟨rfl, rfl⟩

/-- `start` is set when the main thread has gathered its producers, and never taken back. -/
theorem mainStep_start (state : PartitionedMain args) :
    state.mainStep.start = true ∨
      state.mainStep.start = state.start ∧
        (state.main = .gathering → state.mainStep.main = .gathering) := by
  cases point : state.main with
  | gathering =>
      simp only [mainStep, point]
      split
      · exact .inl rfl
      · exact .inr ⟨rfl, fun _ => point⟩
  | joining index =>
      refine .inr ⟨?_, fun gathering => by simp at gathering⟩
      simp only [mainStep, point]
      split
      · split <;> rfl
      · rfl
  | validating symbols ok =>
      refine .inr ⟨?_, fun gathering => by simp at gathering⟩
      cases symbols <;> simp only [mainStep, point]
  | _ => simp [mainStep, point]

/-- The main thread calls the engine in two places only. -/
theorem mainStep_engine (notDraining : state.main ≠ .draining)
    (notClosing : ∀ ok, state.main ≠ .closing ok) : state.mainStep.engine = state.engine := by
  cases point : state.main with
  | draining => exact absurd point notDraining
  | closing ok => exact absurd point (notClosing ok)
  | gathering =>
      simp only [mainStep, point]
      split <;> rfl
  | joining index =>
      simp only [mainStep, point]
      split
      · split <;> rfl
      · rfl
  | validating symbols ok => cases symbols <;> simp only [mainStep, point]
  | _ => simp only [mainStep, point]

theorem mainStep_outside (outside : state.main ≠ .draining →
    state.engine.waiters args.waiter = .outside) (elsewhere : state.mainStep.main ≠ .draining) :
    state.mainStep.engine.waiters args.waiter = .outside := by
  cases point : state.main with
  | draining =>
      simp only [mainStep, point] at elsewhere ⊢
      split at elsewhere
      · rename_i leaves
        exact leaves.2
      · exact absurd rfl elsewhere
  | closing ok =>
      have outside := outside (by simp [point])
      simp only [mainStep, point]
      exact outside_step outside (.closer args.closer) (by simp)
  | _ =>
      have outside := outside (by simp [point])
      rw [mainStep_engine (by simp [point]) (by simp [point]), outside]

theorem Runs.step (runs : state.Runs) (event : PartitionedMainEvent args) :
    (state.step event).Runs := by
  refine ⟨runs.proceeds.step event, ?_, ?_, ?_⟩
  · cases event with
    | main =>
        obtain ⟨drivers, ready⟩ := state.mainStep_drivers
        rw [PartitionedMain.step, Gathered, drivers, ready]
        exact runs.gathered
    | producer id symbol draw => exact runs.gathered.producerStep id symbol draw
    | worker id => exact runs.gathered
  · cases event with
    | main =>
        intro still
        rcases state.mainStep_start with started | ⟨same, stays⟩
        · exact absurd (still.symm.trans started) Bool.false_ne_true
        · exact stays (runs.unstarted (same.symm.trans still))
    | producer id symbol draw =>
        obtain ⟨start, main, _⟩ := state.producerStep_engine id symbol draw
        rw [PartitionedMain.step, start, main]
        exact runs.unstarted
    | worker id => exact runs.unstarted
  · cases event with
    | main => exact mainStep_outside runs.outside
    | producer id symbol draw =>
        obtain ⟨_, main, same | ⟨call, moved⟩⟩ := state.producerStep_engine id symbol draw
        · rw [PartitionedMain.step, main, same]
          exact runs.outside
        · rw [PartitionedMain.step, main, moved]
          exact fun elsewhere => outside_step (runs.outside elsewhere) _ nofun
    | worker id =>
        exact fun elsewhere => outside_step (runs.outside elsewhere) (.worker id) nofun

end PartitionedMain

end Lob
