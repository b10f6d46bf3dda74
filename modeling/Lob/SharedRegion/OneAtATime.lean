import Lob.SharedRegion.Handshake

/-!
# One engine process at a time

Engine processes that start only when the one before is gone, and whose `unlink` does not
fail, find the path free when they create their files.
-/

namespace Lob

namespace Host

variable {bytes : UInt64} {host next : Host} {id : Nat}

/-- An engine process starts when every other one is gone, and its `unlink` does not fail. -/
def OneAtATime (host : Host) : HostEvent → Prop
  | .start _ _ => ∀ other, host.engines other = .gone
  | .engine id true => ∀ seed, host.engines id ≠ .removing seed
  | _ => True

/-- There is at most one engine process, and between its `unlink` and its `open` the path is
free. -/
structure Alone (host : Host) : Prop where
  sole : ∀ id other, host.engines id ≠ .gone → host.engines other ≠ .gone → id = other
  unlinked : ∀ id seed, host.engines id = .creating seed → host.entry = none

theorem alone_initial (found : Option RegionFile) : (initial found).Alone where
  sole := fun _ _ running => absurd rfl running
  unlinked := fun _ _ impossible => EngineStart.noConfusion impossible

theorem Alone.createsAfresh (alone : host.Alone) (event : HostEvent) :
    host.CreatesAfresh event := by
  unfold CreatesAfresh
  split
  · split
    · rename_i creating
      exact alone.unlinked _ _ creating
    · trivial
  · trivial

/-- The one process moves on. -/
theorem alone_of_moves {point : EngineStart}
    (others : ∀ other, other ≠ id → host.engines other = .gone)
    (engines : next.engines = Function.update host.engines id point)
    (unlinked : ∀ seed, point = .creating seed → next.entry = none) : next.Alone := by
  have gone {other : Nat} (differs : other ≠ id) : next.engines other = .gone := by
    rw [engines, Function.update_of_ne differs]
    exact others other differs
  have only {other : Nat} (active : next.engines other ≠ .gone) : other = id :=
    by_contra fun differs => active (gone differs)
  refine ⟨fun first second here there => (only here).trans (only there).symm,
    fun other seed creating => ?_⟩
  obtain rfl := only (by rw [creating]; exact EngineStart.noConfusion)
  rw [engines, Function.update_self] at creating
  exact unlinked seed creating

theorem Alone.others (alone : host.Alone) (active : host.engines id ≠ .gone) (other : Nat)
    (differs : other ≠ id) : host.engines other = .gone :=
  by_contra fun there => differs (alone.sole other id there active)

/-- A step that leaves the engine processes alone and names nothing new. -/
theorem Alone.unlink (alone : host.Alone) (engines : next.engines = host.engines)
    (fewer : ∀ file ∈ next.entry, file ∈ host.entry) : next.Alone where
  sole := by rw [engines]; exact alone.sole
  unlinked := fun id seed creating => by
    rw [engines] at creating
    have free := alone.unlinked id seed creating
    refine Option.eq_none_iff_forall_not_mem.mpr fun file named => ?_
    exact absurd (free ▸ fewer file named) (Option.not_mem_none _)

/-- A step of an engine process is about to create a file only behind its `unlink`. -/
theorem engineStep_engines (host : Host) (id : Nat) (fails : Bool) :
    ∃ point, (host.engineStep bytes id fails).engines = Function.update host.engines id point ∧
      ∀ seed, point = .creating seed → host.engines id = .removing seed ∧
        (host.engineStep bytes id fails).entry = host.removeFile fails := by
  have stays := (Function.update_eq_self id host.engines).symm
  unfold engineStep
  cases point : host.engines id with
  | gone => exact ⟨_, stays, by rw [point]; exact fun _ => EngineStart.noConfusion⟩
  | removing seed => exact ⟨_, rfl, fun _ same => ⟨EngineStart.creating.inj same ▸ rfl, rfl⟩⟩
  | creating seed =>
      dsimp only
      split
      · exact ⟨_, rfl, fun _ => EngineStart.noConfusion⟩
      · unfold createFile
        split <;> exact ⟨_, rfl, fun _ => EngineStart.noConfusion⟩
  | sizing seed file =>
      dsimp only
      split <;> exact ⟨_, rfl, fun _ => EngineStart.noConfusion⟩
  | mapping seed file =>
      refine ⟨_, rfl, ?_⟩
      split <;> exact fun _ => EngineStart.noConfusion
  | constructing seed file => exact ⟨_, rfl, fun _ => EngineStart.noConfusion⟩
  | storing seed file left =>
      cases left with
      | nil => exact ⟨_, rfl, fun _ => EngineStart.noConfusion⟩
      | cons store left =>
          refine ⟨_, rfl, ?_⟩
          split <;> exact fun _ => EngineStart.noConfusion
  | running file => exact ⟨_, stays, by rw [point]; exact fun _ => EngineStart.noConfusion⟩

theorem Alone.engine (alone : host.Alone) {fails : Bool}
    (allowed : host.OneAtATime (.engine id fails)) : (host.engineStep bytes id fails).Alone := by
  by_cases gone : host.engines id = .gone
  · simp only [engineStep, gone]
    exact alone
  · obtain ⟨point, engines, creates⟩ := host.engineStep_engines id fails
    refine alone_of_moves (alone.others gone) engines (fun seed creating => ?_)
    obtain ⟨removing, entry⟩ := creates seed creating
    cases fails with
    | true => exact absurd removing (allowed seed)
    | false => exact entry

theorem Alone.step (alone : host.Alone) {event : HostEvent} (allowed : host.OneAtATime event) :
    (host.step bytes event).Alone := by
  cases event with
  | start id seed =>
      simp only [Host.step, Host.start]
      split
      · exact alone_of_moves (fun other _ => allowed other) rfl (fun _ => EngineStart.noConfusion)
      · exact alone
  | engine id fails => exact alone.engine allowed
  | kill id =>
      by_cases gone : host.engines id = .gone
      · rw [Host.step, ← gone, moveEngine_self]
        exact alone
      · exact alone_of_moves (alone.others gone) rfl (fun _ => EngineStart.noConfusion)
  | serve id counters =>
      simp only [Host.step, Host.serve]
      split
      · exact alone.unlink rfl (fun _ named => named)
      · exact alone
  | client id fails => exact alone.unlink rfl (fun _ named => named)
  | cleanup fails => exact alone.unlink rfl (host.removeFile_subset fails)

/-- Engine processes that run one at a time and whose `unlink` does not fail find the path free
when they create their files. -/
theorem one_at_a_time_creates_afresh (bytes : UInt64) (found : Option RegionFile)
    {events : List HostEvent}
    (oneAtATime : Schedule.Respects (step bytes) OneAtATime (initial found) events) :
    Schedule.Respects (step bytes) CreatesAfresh (initial found) events :=
  Schedule.respects_of_invariant (fun _ _ known allowed => known.step allowed)
    (fun _ event known _ => known.createsAfresh event) (alone_initial found) oneAtATime

end Host

end Lob
