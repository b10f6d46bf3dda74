import Lob.SharedRegion

/-!
# The handshake

If every engine process finds the path free when it creates its file, each file has one
process that initialises it and serves it, and a client that has seen `READY` in it can rely on
it. Two engine processes that come up together need not find the path free, and then the later
one empties the region of the earlier one under its clients.
-/

namespace Lob

/-! ### The stores of a start-up -/

namespace InitStore

/-- The memory after some of the stores. -/
def runAll (bytes : UInt64) (seed : SharedHeader) (done : List InitStore) : RegionMemory :=
  done.foldl (InitStore.run bytes seed) {}

theorem runAll_concat (bytes : UInt64) (seed : SharedHeader) (done : List InitStore)
    (store : InitStore) :
    runAll bytes seed (done ++ [store]) = store.run bytes seed (runAll bytes seed done) := by
  rw [runAll, List.foldl_append]
  rfl

theorem state_runAll (bytes : UInt64) (seed : SharedHeader) {done : List InitStore}
    (unready : .ready ∉ done) : (runAll bytes seed done).state = regionNotReady := by
  induction done using List.reverseRecOn with
  | nil => rfl
  | append_singleton done store ih =>
      rw [List.mem_append, not_or] at unready
      rw [runAll_concat, ← ih unready.1]
      cases store with
      | ready => exact absurd (List.mem_singleton_self _) unready.2
      | _ => rfl

/-- `READY` is the last store. -/
theorem ready_not_mem {done left : List InitStore} (split : done ++ left = all)
    (more : left ≠ []) : .ready ∉ done := by
  have front : done = all.take done.length := by rw [← split, List.take_left]
  have short : done.length < 12 := by
    have count := congrArg List.length split
    have some := List.length_pos_iff.mpr more
    rw [List.length_append] at count
    change _ = 12 at count
    omega
  have never : ∀ k < 12, .ready ∉ all.take k := by decide
  rw [front]
  exact never _ short

/-- Before the last store, the header is announced and holds what was recovered. -/
theorem runAll_dropLast (bytes : UInt64) (seed : SharedHeader) :
    runAll bytes seed all.dropLast =
      { magic := kSharedMemoryMagic, regionSize := bytes, version := kSharedMemoryVersion
        counters := seed } := by
  simp only [runAll, all, List.dropLast, List.foldl_cons, List.foldl_nil, InitStore.run]

theorem runAll_all (bytes : UInt64) (seed : SharedHeader) :
    runAll bytes seed all =
      { magic := kSharedMemoryMagic, regionSize := bytes, version := kSharedMemoryVersion
        state := regionReady, counters := seed } := by
  rw [show all = all.dropLast ++ [.ready] from rfl, runAll_concat, runAll_dropLast, InitStore.run]

end InitStore

/-! ### Any number of engine processes -/

namespace Host

variable {bytes : UInt64} {host : Host} {file : Nat} {fails : Bool} {point : EngineStart}

/-- The memory of a file that an engine process is initialising. -/
def Prepared (bytes : UInt64) (memory : RegionMemory) : EngineStart → Prop
  | .sizing _ _ => memory = .zero
  | .mapping _ _ => memory = .zero
  | .constructing _ _ => memory = .zero
  | .storing seed _ left =>
      left ≠ [] ∧ ∃ done, done ++ left = InitStore.all ∧ memory = InitStore.runAll bytes seed done
  | _ => True

theorem Prepared.state {memory : RegionMemory} {engine : EngineStart}
    (prepared : Prepared bytes memory engine) (starting : engine.initialising? = some file) :
    memory.state = regionNotReady := by
  cases engine with
  | sizing _ _ => rw [prepared]; rfl
  | mapping _ _ => rw [prepared]; rfl
  | constructing _ _ => rw [prepared]; rfl
  | storing seed _ left =>
      obtain ⟨more, done, split, rfl⟩ := prepared
      exact InitStore.state_runAll bytes seed (InitStore.ready_not_mem split more)
  | _ => contradiction

/-- Files that engine processes have made, number one and on, belong to one process each, are
announced before they are ready, and a client that has seen `READY` in one of them is right
about it. -/
structure Sound (bytes : UInt64) (host : Host) : Prop where
  positive : 0 < host.next
  path : ∀ named ∈ host.entry, named + 1 = host.next
  created : ∀ id, ∀ file ∈ (host.engines id).file?, 0 < file ∧ file < host.next
  owned : ∀ id other file, file ∈ (host.engines id).file? → file ∈ (host.engines other).file? →
    id = other
  prepared : ∀ id, ∀ file ∈ (host.engines id).file?,
    Prepared bytes (host.files file).memory (host.engines id)
  announced : ∀ file, 0 < file → file < host.next →
    (host.files file).memory.state = regionNotReady ∨ (host.files file).memory.Announced bytes
  opened : ∀ id, ∀ file ∈ (host.clients id).file?, file < host.next
  ready : ∀ id, ∀ file ∈ (host.clients id).ready?, 0 < file →
    (host.files file).memory.state = regionReady

theorem sound_initial (bytes : UInt64) (found : Option RegionFile) :
    (initial found).Sound bytes where
  positive := Nat.zero_lt_one
  path := by
    cases found with
    | none => exact fun _ none => absurd none (Option.not_mem_none _)
    | some _ =>
        intro file named
        obtain rfl := Option.some.inj named
        rfl
  created := fun _ _ none => absurd none (Option.not_mem_none _)
  owned := fun _ _ _ none => absurd none (Option.not_mem_none _)
  prepared := fun _ _ none => absurd none (Option.not_mem_none _)
  announced := fun file positive below => absurd below (Nat.not_lt.mpr positive)
  opened := fun _ _ none => absurd none (Option.not_mem_none _)
  ready := fun _ _ none => absurd none (Option.not_mem_none _)

/-- A client keeps its file or opens the one that the path names. -/
theorem file_clientStep {point : ClientPoint}
    (has : (host.clientStep bytes point fails).file? = some file) :
    point.file? = some file ∨ host.entry = some file := by
  cases point with
  | opening attempt =>
      simp only [clientStep] at has
      split at has
      · rename_i named
        exact Or.inr (named.trans has)
      · rw [ClientPoint.file_retry] at has
        contradiction
  | _ =>
      -- the other steps keep the file or close it
      simp only [clientStep] at has
      repeat' split at has
      all_goals try rw [ClientPoint.file_retry] at has
      all_goals first | contradiction | exact Or.inl has

/-- A client gets past its poll by loading `READY`. -/
theorem ready_clientStep {point : ClientPoint}
    (has : (host.clientStep bytes point fails).ready? = some file) :
    point.ready? = some file ∨ (host.files file).memory.state = regionReady := by
  cases point with
  | polling named =>
      simp only [clientStep] at has
      split at has
      · rename_i ready
        obtain rfl := Option.some.inj has
        exact Or.inr ready
      · contradiction
  | _ =>
      simp only [clientStep] at has
      repeat' split at has
      all_goals try rw [ClientPoint.ready_retry] at has
      all_goals first | contradiction | exact Or.inl has

theorem Sound.client (sound : host.Sound bytes) (id : Nat) (fails : Bool) :
    (host.step bytes (.client id fails)).Sound bytes := by
  refine { sound with opened := fun other file has => ?_, ready := fun other file has made => ?_ }
  · by_cases same : other = id
    · subst same
      simp only [Host.step, Function.update_self] at has
      rcases file_clientStep has with before | named
      · exact sound.opened other file before
      · exact Nat.lt_of_succ_le (sound.path file named).le
    · simp only [Host.step, Function.update_of_ne same] at has
      exact sound.opened other file has
  · by_cases same : other = id
    · subst same
      simp only [Host.step, Function.update_self] at has
      rcases ready_clientStep has with before | ready
      · exact sound.ready other file before made
      · exact ready
    · simp only [Host.step, Function.update_of_ne same] at has
      exact sound.ready other file has made

/-- The path may lose its file at any time. -/
theorem Sound.unlink (sound : host.Sound bytes) {entry : Option Nat}
    (fewer : ∀ file ∈ entry, file ∈ host.entry) : Sound bytes { host with entry } :=
  { sound with path := fun named has => sound.path named (fewer named has) }

theorem removeFile_subset (host : Host) (fails : Bool) :
    ∀ file ∈ host.removeFile fails, file ∈ host.entry := by
  cases fails with
  | true => exact fun _ named => named
  | false => exact fun _ none => absurd none (Option.not_mem_none _)

/-- What an engine process has created, after one of them has moved on. -/
theorem file_moveEngine {id other file : Nat}
    (has : file ∈ ((host.moveEngine id point).engines other).file?) :
    (other = id ∧ point.file? = some file) ∨
      (other ≠ id ∧ file ∈ (host.engines other).file?) := by
  by_cases same : other = id
  · subst same
    simp only [moveEngine, Function.update_self] at has
    exact Or.inl ⟨rfl, has⟩
  · simp only [moveEngine, Function.update_of_ne same] at has
    exact Or.inr ⟨same, has⟩

/-- An engine process that is gone, or has not created its file yet, has none. -/
theorem Sound.detach (sound : host.Sound bytes) (id : Nat) (none : point.file? = none) :
    (host.moveEngine id point).Sound bytes := by
  have keeps {other file : Nat} (has : file ∈ ((host.moveEngine id point).engines other).file?) :
      other ≠ id ∧ file ∈ (host.engines other).file? := by
    rcases file_moveEngine has with ⟨_, mine⟩ | kept
    · exact absurd (none.symm.trans mine) (Option.some_ne_none _).symm
    · exact kept
  exact { sound with
    created := fun other file has => sound.created other file (keeps has).2
    owned := fun first second file has has' =>
      sound.owned first second file (keeps has).2 (keeps has').2
    prepared := fun other file has => by
      obtain ⟨differs, kept⟩ := keeps has
      simp only [moveEngine, Function.update_of_ne differs]
      exact sound.prepared other file kept }

/-- An engine process changes its own file, which stays ready if it was. -/
theorem Sound.update (sound : host.Sound bytes) {id file : Nat} {change : RegionFile → RegionFile}
    (mine : (host.engines id).file? = some file) (stays : point.file? = some file)
    (keeps : (host.files file).memory.state = regionReady →
      (change (host.files file)).memory.state = regionReady)
    (announced : (change (host.files file)).memory.state = regionNotReady ∨
      (change (host.files file)).memory.Announced bytes)
    (prepared : Prepared bytes (change (host.files file)).memory point) :
    ((host.modify file change).moveEngine id point).Sound bytes := by
  have before {other made : Nat}
      (has : made ∈ (((host.modify file change).moveEngine id point).engines other).file?) :
      made ∈ (host.engines other).file? := by
    rcases file_moveEngine has with ⟨rfl, moved⟩ | ⟨_, kept⟩
    · exact mine.trans (stays.symm.trans moved)
    · exact kept
  refine ⟨sound.positive, sound.path, fun other made has => sound.created other made (before has),
    fun first second made has has' => sound.owned first second made (before has) (before has'),
    fun other made has => ?_, fun made positive below => ?_, sound.opened,
    fun client made has positive => ?_⟩
  · rcases file_moveEngine has with ⟨rfl, moved⟩ | ⟨differs, kept⟩
    · obtain rfl := Option.some.inj (stays.symm.trans moved)
      simpa [modify, moveEngine] using prepared
    · -- the file of another process is another file
      have apart : made ≠ file := fun same =>
        differs (sound.owned other id made kept (mine.trans (congrArg some same.symm)))
      simp only [modify, moveEngine, Function.update_of_ne apart, Function.update_of_ne differs]
      exact sound.prepared other made kept
  · by_cases same : made = file
    · subst same
      simpa [modify, moveEngine] using announced
    · simpa [modify, moveEngine, Function.update_of_ne same] using
        sound.announced made positive below
  · have ready := sound.ready client made has positive
    by_cases same : made = file
    · subst same
      simpa [modify, moveEngine] using keeps ready
    · simpa [modify, moveEngine, Function.update_of_ne same] using ready

/-- The file that an engine process creates on a free path is new. -/
theorem Sound.create (sound : host.Sound bytes) (free : host.entry = none) (id : Nat)
    (seed : SharedHeader) : (host.createFile id seed).Sound bytes := by
  unfold createFile
  rw [free]
  have old {other file : Nat} (has : file ∈ (host.engines other).file?) : file ≠ host.next :=
    Nat.ne_of_lt (sound.created other file has).2
  refine ⟨Nat.succ_pos _, ?_, ?_, ?_, ?_, ?_, ?_, ?_⟩
  · intro named has
    obtain rfl := Option.some.inj has
    rfl
  · intro other file has
    rcases file_moveEngine has with ⟨rfl, new⟩ | ⟨_, kept⟩
    · obtain rfl := Option.some.inj new
      exact ⟨sound.positive, Nat.lt_succ_self _⟩
    · obtain ⟨positive, below⟩ := sound.created other file kept
      exact ⟨positive, Nat.lt_succ_of_lt below⟩
  · intro first second file has has'
    rcases file_moveEngine has with ⟨rfl, new⟩ | ⟨_, kept⟩ <;>
      rcases file_moveEngine has' with ⟨rfl, new'⟩ | ⟨_, kept'⟩
    · rfl
    · exact absurd (Option.some.inj new).symm (old kept')
    · exact absurd (Option.some.inj new').symm (old kept)
    · exact sound.owned first second file kept kept'
  · intro other file has
    rcases file_moveEngine has with ⟨rfl, new⟩ | ⟨differs, kept⟩
    · obtain rfl := Option.some.inj new
      simp [modify, moveEngine, Prepared]
    · simp only [modify, moveEngine, Function.update_of_ne (old kept),
        Function.update_of_ne differs]
      exact sound.prepared other file kept
  · intro file made below
    by_cases new : file = host.next
    · subst new
      exact Or.inl (by simp [modify, moveEngine, RegionMemory.zero])
    · simpa [modify, moveEngine, Function.update_of_ne new] using
        sound.announced file made (by change file < host.next + 1 at below; omega)
  · exact fun client file has => Nat.lt_succ_of_lt (sound.opened client file has)
  · intro client file has made
    have below := sound.opened client file (ClientPoint.file_of_ready has)
    simpa [modify, moveEngine, Function.update_of_ne (Nat.ne_of_lt below)] using
      sound.ready client file has made

/-- One more store. The last one makes the region ready, and then it is announced. -/
theorem Sound.store (sound : host.Sound bytes) {id : Nat} {seed : SharedHeader} {store : InitStore}
    {left : List InitStore} (storing : host.engines id = .storing seed file (store :: left)) :
    ((host.modify file (fun found =>
      { found with memory := store.run bytes seed found.memory })).moveEngine id
        (if left = [] then .running file else .storing seed file left)).Sound bytes := by
  have mine : (host.engines id).file? = some file := by rw [storing]; rfl
  have prepared := sound.prepared id file mine
  have pending : (host.files file).memory.state = regionNotReady :=
    prepared.state (show (host.engines id).initialising? = some file by rw [storing]; rfl)
  rw [storing] at prepared
  obtain ⟨_, done, split, memory⟩ := prepared
  have unready : (host.files file).memory.state ≠ regionReady := by
    rw [pending]
    decide
  have next : store.run bytes seed (host.files file).memory =
      InitStore.runAll bytes seed (done ++ [store]) := by
    rw [memory, InitStore.runAll_concat]
  rw [← List.singleton_append, ← List.append_assoc] at split
  by_cases last : left = []
  · rw [if_pos last]
    rw [last, List.append_nil] at split
    refine sound.update mine rfl (fun ready => absurd ready unready) (Or.inr ?_) trivial
    dsimp only
    rw [next, split, InitStore.runAll_all]
    exact ⟨rfl, rfl, rfl⟩
  · rw [if_neg last]
    refine sound.update mine rfl (fun ready => absurd ready unready) (Or.inl ?_)
      ⟨last, _, split, next⟩
    dsimp only
    rw [next]
    exact InitStore.state_runAll bytes seed (InitStore.ready_not_mem split last)

theorem modify_self (host : Host) (file : Nat) :
    host.modify file (fun found => found) = host := by
  rw [modify, Function.update_eq_self]

theorem moveEngine_self (host : Host) (id : Nat) :
    host.moveEngine id (host.engines id) = host := by
  rw [moveEngine, Function.update_eq_self]

theorem Sound.engine (sound : host.Sound bytes) {id : Nat}
    (afresh : host.CreatesAfresh (.engine id fails)) :
    (host.engineStep bytes id fails).Sound bytes := by
  unfold engineStep
  split
  · exact sound
  · exact (sound.detach id rfl).unlink (host.removeFile_subset fails)
  · rename_i seed creating
    split
    · exact sound.detach id rfl
    · rename_i works
      obtain rfl := Bool.eq_false_of_not_eq_true works
      simp only [CreatesAfresh, creating] at afresh
      exact sound.create afresh id seed
  · rename_i seed file sizing
    have prepared := sound.prepared id file (by rw [sizing]; rfl)
    rw [sizing] at prepared
    split
    · exact sound.detach id rfl
    · exact sound.update (by rw [sizing]; rfl) rfl (fun ready => ready)
        (Or.inl (by dsimp only; rw [prepared]; rfl)) prepared
  · rename_i seed file mapping
    have prepared := sound.prepared id file (by rw [mapping]; rfl)
    rw [mapping] at prepared
    split
    · exact sound.detach id rfl
    · rw [← host.modify_self file]
      exact sound.update (by rw [mapping]; rfl) rfl (fun ready => ready)
        (Or.inl (by rw [prepared]; rfl)) prepared
  · rename_i seed file constructing
    have prepared := sound.prepared id file (by rw [constructing]; rfl)
    rw [constructing] at prepared
    have unready : (host.files file).memory.state ≠ regionReady := by
      rw [prepared]
      decide
    exact sound.update (by rw [constructing]; rfl) rfl (fun ready => absurd ready unready)
      (Or.inl rfl) ⟨by decide, [], rfl, rfl⟩
  · rename_i storing
    exact sound.store storing
  · rename_i seed file storing
    have prepared := sound.prepared id file (by rw [storing]; rfl)
    rw [storing] at prepared
    exact absurd rfl prepared.1
  · exact sound

theorem Sound.serve (sound : host.Sound bytes) (id : Nat) (counters : SharedHeader) :
    (host.serve id counters).Sound bytes := by
  unfold Host.serve
  split
  · rename_i file running
    have mine : (host.engines id).file? = some file := by rw [running]; rfl
    obtain ⟨made, below⟩ := sound.created id file mine
    rw [← moveEngine_self (host.modify file _) id]
    refine sound.update mine mine (fun ready => ready) ?_ (by rw [modify, running]; trivial)
    exact (sound.announced file made below).imp_right
      (fun announced => ⟨announced.magic, announced.regionSize, announced.version⟩)
  · exact sound

theorem Sound.step (sound : host.Sound bytes) {event : HostEvent}
    (afresh : host.CreatesAfresh event) : (host.step bytes event).Sound bytes := by
  cases event with
  | start id seed =>
      simp only [Host.step, Host.start]
      split
      · exact sound.detach id rfl
      · exact sound
  | engine id fails => exact sound.engine afresh
  | kill id => exact sound.detach id rfl
  | serve id counters => exact sound.serve id counters
  | client id fails => exact sound.client id fails
  | cleanup fails => exact sound.unlink (host.removeFile_subset fails)

/-- What the handshake promises if every engine process finds the path free when it creates its
file, whatever file was there at first, however many engine processes run at a time and
whichever are killed. A client that has seen `READY` is never on a file that an engine process
is initialising; unless it has the file of an earlier run, its file is ready and announced. No
two engine processes have one file, and the path never names an older file than that of an
engine process. Before `READY` is stored, everything else is in place. -/
theorem handshake_sound (bytes : UInt64) (found : Option RegionFile) {events : List HostEvent}
    (afresh : Schedule.Respects (step bytes) CreatesAfresh (initial found) events) :
    let host := Schedule.run (step bytes) (initial found) events
    (∀ client file, (host.clients client).ready? = some file →
      (∀ id, (host.engines id).initialising? ≠ some file) ∧
        (file = 0 ∨ (host.files file).memory.state = regionReady ∧
          (host.files file).memory.Announced bytes)) ∧
    (∀ id other file, (host.engines id).file? = some file →
      (host.engines other).file? = some file → id = other) ∧
    (∀ id file named, (host.engines id).file? = some file → host.entry = some named →
      file ≤ named) ∧
    (∀ id seed file, host.engines id = .storing seed file [.ready] →
      (host.files file).memory.counters = seed ∧ (host.files file).memory.Announced bytes) := by
  intro host
  have sound : host.Sound bytes :=
    Schedule.run_invariant_of_respects (fun _ _ known allowed => known.step allowed)
      (sound_initial bytes found) afresh
  refine ⟨fun client file has => ⟨fun id starting => ?_, ?_⟩, sound.owned, ?_, ?_⟩
  · have mine : (host.engines id).file? = some file := by
      cases point : host.engines id <;> rw [point] at starting
      all_goals first | exact starting | contradiction
    have pending := (sound.prepared id file mine).state starting
    have ready := sound.ready client file has (sound.created id file mine).1
    exact absurd (pending.symm.trans ready) (by decide)
  · rcases Nat.eq_zero_or_pos file with old | made
    · exact Or.inl old
    · have ready := sound.ready client file has made
      have below := sound.opened client file (ClientPoint.file_of_ready has)
      refine Or.inr ⟨ready, (sound.announced file made below).resolve_left ?_⟩
      rw [ready]
      decide
  · intro id file named mine has
    have below := (sound.created id file mine).2
    have newest := sound.path named has
    omega
  · intro id seed file storing
    have prepared := sound.prepared id file (by rw [storing]; rfl)
    rw [storing] at prepared
    obtain ⟨_, done, split, memory⟩ := prepared
    obtain rfl : done = InitStore.all.dropLast := by
      rw [← split, List.dropLast_concat]
    rw [memory, InitStore.runAll_dropLast]
    exact ⟨rfl, rfl, rfl, rfl⟩

/-- A client waits at the region that an engine process is building, while another one is on
the file of an earlier version and gives up. A second engine process takes the path over. -/
theorem handshake_sound_takeover :
    let old : RegionFile :=
      { size := 4096
        memory := { magic := kSharedMemoryMagic, version := 1, state := regionReady } }
    let events : List HostEvent :=
      [.client 0 false, .start 0 {}] ++ List.replicate 6 (.engine 0 false) ++
        List.replicate 5 (.client 1 false) ++ List.replicate 7 (.client 0 false) ++
        List.replicate 11 (.engine 0 false) ++ List.replicate 4 (.client 1 false) ++
        [.start 1 {}] ++ List.replicate 6 (.engine 1 false)
    let host := Schedule.run (step 4096) (initial (some old)) events
    host.clients 0 = .mismatched ∧ host.clients 1 = .attached 1 ∧ host.engines 0 = .running 1 ∧
      (host.engines 1).initialising? = some 2 ∧ host.entry = some 2 ∧
      (host.files 1).memory.state = regionReady ∧ (host.files 1).memory.Announced 4096 := by
  intro old events host
  have afresh : Schedule.Respects (step 4096) CreatesAfresh (initial (some old)) events := by
    decide +kernel
  have attached : host.clients 1 = .attached 1 := by decide +kernel
  obtain ⟨_, file⟩ := (handshake_sound 4096 (some old) afresh).1 1 1 (by rw [attached]; rfl)
  exact ⟨by decide +kernel, attached, by decide +kernel, by decide +kernel, by decide +kernel,
    file.resolve_left (by decide)⟩

/-- The condition is needed. If the `unlink` fails, the engine process builds its region in
the old file, and a client that has seen the old `READY` is attached to it meanwhile. -/
theorem attached_while_initialising :
    let old : RegionFile := { size := 4096, memory := { state := regionReady } }
    let events : List HostEvent :=
      List.replicate 4 (.client 0 false) ++ [.start 0 {}, .engine 0 true] ++
        List.replicate 7 (.engine 0 false) ++ List.replicate 3 (.client 0 false)
    let host := Schedule.run (step 4096) (initial (some old)) events
    host.clients 0 = .attached 0 ∧ (host.engines 0).initialising? = some 0 ∧
      (host.files 0).memory.state = regionNotReady := by
  decide +kernel

/-- No system call has to fail for that. Of two engine processes that come up together, both
unlink the old file; one builds its region and serves a client, then the other one empties this
region and starts to build its own in it. -/
theorem overlapping_engines_share_file :
    let events : List HostEvent :=
      [.start 0 {}, .start 1 {}, .engine 0 false, .engine 1 false] ++
        List.replicate 16 (.engine 0 false) ++ List.replicate 7 (.client 0 false) ++
        [.engine 1 false]
    let host := Schedule.run (step 4096) (initial none) events
    host.clients 0 = .attached 1 ∧ host.engines 0 = .running 1 ∧
      (host.engines 1).initialising? = some 1 ∧ (host.files 1).size = 0 ∧
      (host.files 1).memory.state = regionNotReady := by
  decide +kernel

end Host

end Lob
