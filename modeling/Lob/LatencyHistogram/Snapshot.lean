import Lob.LatencyHistogram.Recording

/-!
# Extremes in live snapshots

`record` updates the extremes last, but a snapshot takes a positive count as a sign that they
are valid. Before any call has returned, a snapshot can therefore show the initial values of
`min_ns_` and `max_ns_`, or a minimum above the maximum.

If some call has returned when the snapshot loads `min_ns_`, its value lies between what the
snapshot loads, and so both are recorded values. A minimum of zero is harmless as well. In
every other state the snapshot can go on to mislead, so the condition is exact.
-/

namespace Lob

open AtomicLatencyHistogram

/-! ### Extremes in a snapshot -/

/-- Extremes that were recorded, in their order. -/
structure Extremes (recorded : Multiset UInt64) (low high : UInt64) : Prop where
  low_mem : low ∈ recorded
  high_mem : high ∈ recorded
  le : low ≤ high

theorem Extremes.mono {recorded recorded' : Multiset UInt64} {low high : UInt64}
    (extremes : Extremes recorded low high) (grows : recorded ≤ recorded') :
    Extremes recorded' low high :=
  ⟨Multiset.mem_of_le grows extremes.low_mem, Multiset.mem_of_le grows extremes.high_mem,
    extremes.le⟩

namespace SnapshotPoint

/-- What the reader has loaded is genuine, and no maximum to come is below its minimum. -/
def Genuine (recorded finished : Multiset UInt64) : SnapshotPoint → Prop
  | .outside => True
  | .loadedCount _ => True
  | .loadedMin _ minNs =>
      minNs ∈ recorded ∧ (minNs = 0 ∨ ∃ value ∈ finished, minNs ≤ value)
  | .loadedMax _ minNs maxNs => Extremes recorded minNs maxNs
  | .scanning out _ _ _ _ => Extremes recorded out.minNs out.maxNs

variable {recorded recorded' finished finished' : Multiset UInt64} {point : SnapshotPoint}

theorem Genuine.mono (genuine : point.Genuine recorded finished) (grows : recorded ≤ recorded')
    (grows' : finished ≤ finished') : point.Genuine recorded' finished' := by
  cases point with
  | outside => trivial
  | loadedCount count => trivial
  | loadedMin count minNs =>
      refine ⟨Multiset.mem_of_le grows genuine.1, genuine.2.imp_right ?_⟩
      rintro ⟨value, member, le⟩
      exact ⟨value, Multiset.mem_of_le grows' member, le⟩
  | loadedMax count minNs maxNs => exact Extremes.mono genuine grows
  | scanning out percentile rank cumulative ahead => exact Extremes.mono genuine grows

theorem endScan_genuine (ceil : Percentile → UInt64 → UInt64) (finished : Multiset UInt64)
    {out : LatencySnapshot} (extremes : Extremes recorded out.minNs out.maxNs)
    (percentile : Percentile) (bound : UInt64) :
    (endScan ceil out percentile bound).1.Genuine recorded finished ∧
      ∀ snapshot ∈ (endScan ceil out percentile bound).2,
        Extremes recorded snapshot.minNs snapshot.maxNs := by
  cases percentile with
  | p50 | p95 | p99 => exact ⟨extremes, fun _ none => absurd none (Option.not_mem_none _)⟩
  | p999 =>
      refine ⟨trivial, fun snapshot returned => ?_⟩
      obtain rfl := Option.some.inj returned
      exact extremes

/-- A step of the reader. It loads the minimum when some call has returned, or a zero. -/
theorem Genuine.step (ceil : Percentile → UInt64 → UInt64) {histogram : AtomicLatencyHistogram}
    {lowered : Multiset UInt64} (genuine : point.Genuine recorded finished)
    (minNs : Lowest histogram.minNs lowered) (maxNs : Highest histogram.maxNs finished)
    (finished_le : finished ≤ lowered) (lowered_le : lowered ≤ recorded)
    (settled : ∀ count, point = .loadedCount count → finished ≠ 0 ∨ histogram.minNs = 0) :
    (point.step ceil histogram).1.Genuine recorded finished ∧
      ∀ snapshot ∈ (point.step ceil histogram).2, snapshot.count ≠ 0 →
        Extremes recorded snapshot.minNs snapshot.maxNs := by
  have silent : ∀ snapshot ∈ (none : Option LatencySnapshot), snapshot.count ≠ 0 →
      Extremes recorded snapshot.minNs snapshot.maxNs :=
    fun _ member => absurd member (Option.not_mem_none _)
  cases point with
  | outside =>
      simp only [SnapshotPoint.step]
      split
      · refine ⟨trivial, fun snapshot returned nonzero => ?_⟩
        obtain rfl := Option.some.inj returned
        exact absurd rfl nonzero
      · exact ⟨trivial, silent⟩
  | loadedCount count =>
      refine ⟨?_, silent⟩
      rcases settled count rfl with returned | zero
      · obtain ⟨value, member⟩ := Multiset.exists_mem_of_ne_zero returned
        have inLowered := Multiset.mem_of_le finished_le member
        exact ⟨Multiset.mem_of_le lowered_le (minNs.mem inLowered),
          Or.inr ⟨value, member, minNs.le value inLowered⟩⟩
      · refine ⟨Multiset.mem_of_le lowered_le (minNs.attained.resolve_right ?_), Or.inl zero⟩
        rw [zero]
        decide
  | loadedMin count low =>
      refine ⟨?_, silent⟩
      have recorded_of {value : UInt64} (member : value ∈ finished) : value ∈ recorded :=
        Multiset.mem_of_le (finished_le.trans lowered_le) member
      obtain ⟨inRecorded, rfl | ⟨value, member, le⟩⟩ := genuine
      · refine ⟨inRecorded, ?_, UInt64.zero_le⟩
        rcases maxNs.attained with member | zero
        · exact recorded_of member
        · rwa [zero]
      · exact ⟨inRecorded, recorded_of (maxNs.mem member),
          UInt64.le_trans le (maxNs.le value member)⟩
  | loadedMax count low high => exact ⟨genuine, silent⟩
  | scanning out percentile rank cumulative ahead =>
      have extremes : Extremes recorded out.minNs out.maxNs := genuine
      have ends := endScan_genuine ceil finished extremes percentile
      cases ahead with
      | nil => exact ⟨(ends _).1, fun snapshot returned _ => (ends _).2 snapshot returned⟩
      | cons bucket ahead =>
          simp only [SnapshotPoint.step]
          split
          · exact ⟨(ends _).1, fun snapshot returned _ => (ends _).2 snapshot returned⟩
          · exact ⟨extremes, silent⟩

end SnapshotPoint

namespace HistogramSystem

variable {threads : Nat} {ceil : Percentile → UInt64 → UInt64} {system : HistogramSystem threads}

/-- Every snapshot that counts a value shows extremes that were recorded, in their order. -/
def Genuine (system : HistogramSystem threads) : Prop :=
  ∀ snapshot ∈ system.snapshots, snapshot.count ≠ 0 →
    Extremes system.recorded snapshot.minNs snapshot.maxNs

/-- When the reader loads `min_ns_`, some call of `record` has returned or `min_ns_` is zero. -/
def Settled (system : HistogramSystem threads) (event : HistogramEvent threads) : Prop :=
  match event, system.reader with
  | .snapshot, .loadedCount _ =>
      (∃ id, (system.recorders id).finished ≠ []) ∨ system.histogram.minNs = 0
  | _, _ => True

instance (event : HistogramEvent threads) : Decidable (system.Settled event) := by
  unfold Settled
  split <;> infer_instance

/-- The last stage is passed when a call returns. -/
theorem past_max_ne_zero {id : Fin threads} (returned : (system.recorders id).finished ≠ []) :
    system.past .max ≠ 0 := by
  obtain ⟨value, member⟩ := List.exists_mem_of_ne_nil _ returned
  have passed : value ∈ system.past .max :=
    Multiset.mem_sum.mpr ⟨id, Finset.mem_univ id, Multiset.mem_add.mpr (Or.inl member)⟩
  rintro none
  rw [none] at passed
  exact absurd passed (Multiset.notMem_zero _)

/-- What holds in every state of a run in which the reader never comes too early. -/
structure Live (system : HistogramSystem threads) : Prop where
  reflected : system.Reflected
  reader : system.reader.Genuine system.recorded (system.past .max)
  genuine : system.Genuine

theorem Live.step (live : system.Live) {event : HistogramEvent threads}
    (settled : system.Settled event) : (system.step ceil event).Live := by
  have reflected : (system.step ceil event).Reflected := live.reflected.step event
  cases event with
  | record id value spurious =>
      have grows := live.reflected.past_mono ceil (.record id value spurious) .bucket
      have grows' := live.reflected.past_mono ceil (.record id value spurious) .max
      exact ⟨reflected, live.reader.mono grows grows',
        fun snapshot member nonzero => (live.genuine snapshot member nonzero).mono grows⟩
  | snapshot =>
      have returned (count : UInt64) (loaded : system.reader = .loadedCount count) :
          system.past .max ≠ 0 ∨ system.histogram.minNs = 0 := by
        simp only [Settled, loaded] at settled
        exact settled.imp_left (fun ⟨id, finished⟩ => past_max_ne_zero finished)
      obtain ⟨reader, shown⟩ := live.reader.step ceil live.reflected.histogram.minNs
        live.reflected.histogram.maxNs (system.past_antitone (by decide))
        (system.past_antitone (by decide)) returned
      refine ⟨reflected, reader, fun snapshot member nonzero => ?_⟩
      rcases List.mem_append.mp member with old | new
      · exact live.genuine snapshot old nonzero
      · exact shown snapshot (Option.mem_toList.mp new) nonzero

theorem live_initial : ({} : HistogramSystem threads).Live :=
  ⟨reflected_initial, trivial, fun _ member => absurd member List.not_mem_nil⟩

/-- Live snapshots are genuine in every run in which the reader loads `min_ns_` only when some
call of `record` has returned or `min_ns_` is zero. -/
theorem live_snapshots_genuine {events : List (HistogramEvent threads)}
    (settled : Schedule.Respects (HistogramSystem.step ceil) Settled {} events) :
    (Schedule.run (HistogramSystem.step ceil) {} events).Genuine :=
  (Schedule.run_invariant_of_respects (fun _ _ live settled => live.step settled)
    live_initial settled).genuine

/-- One value is recorded and then a snapshot taken while the next one is on its way. -/
theorem live_snapshots_genuine_returned :
    let events : List (HistogramEvent 2) :=
      List.replicate 7 (.record 0 9 false) ++ [.record 1 2 false] ++
        List.replicate 12 .snapshot
    let system := Schedule.run (HistogramSystem.step (fun _ count => count)) {} events
    Schedule.Respects (HistogramSystem.step (fun _ count => count)) Settled {} events ∧
      system.snapshots.map LatencySnapshot.count = [1] ∧ system.Genuine :=
  ⟨by decide +kernel, by decide +kernel, live_snapshots_genuine (by decide +kernel)⟩

/-- The reader finds the first value counted before any extreme is updated, and shows both
initial values. -/
theorem live_snapshot_of_initial_extremes :
    let events : List (HistogramEvent 1) :=
      List.replicate 2 (.record 0 5 false) ++ List.replicate 20 .snapshot
    let system := Schedule.run (HistogramSystem.step (fun _ count => count)) {} events
    system.recorded = {5} ∧
      system.snapshots.map (fun snapshot => (snapshot.count, snapshot.minNs, snapshot.maxNs)) =
        [(1, uint64Max, 0)] ∧
      ¬system.Genuine := by
  intro events system
  have shown : ∃ snapshot ∈ system.snapshots, snapshot.count ≠ 0 ∧
      ¬snapshot.minNs ≤ snapshot.maxNs := by decide +kernel
  refine ⟨by decide +kernel, by decide +kernel, fun genuine => ?_⟩
  obtain ⟨snapshot, member, nonzero, above⟩ := shown
  exact above (genuine snapshot member nonzero).le

/-! ### The condition is exact -/

/-- A reader on its own comes to the end of its scan. -/
theorem exists_scan_end {out : LatencySnapshot} {percentile : Percentile} {rank : UInt64}
    {ahead : List (Fin kBucketCount)} {cumulative : UInt64}
    (scanning : system.reader = .scanning out percentile rank cumulative ahead) :
    ∃ later bound,
      (Schedule.run (HistogramSystem.step ceil) system later).reader =
        (SnapshotPoint.endScan ceil out percentile bound).1 ∧
      ∀ snapshot ∈ (SnapshotPoint.endScan ceil out percentile bound).2,
        snapshot ∈ (Schedule.run (HistogramSystem.step ceil) system later).snapshots := by
  induction ahead generalizing system cumulative with
  | nil =>
      refine ⟨[.snapshot], system.histogram.maxNs, ?_, fun snapshot returned => ?_⟩
      · simp [Schedule.run, HistogramSystem.step, scanning, SnapshotPoint.step]
      · simpa [Schedule.run, HistogramSystem.step, scanning, SnapshotPoint.step]
          using Or.inr returned
  | cons bucket ahead ih =>
      by_cases reached : cumulative + system.histogram.buckets.get bucket ≥ rank
      · refine ⟨[.snapshot], bucketUpperBound bucket, ?_, fun snapshot returned => ?_⟩
        · simp [Schedule.run, HistogramSystem.step, scanning, SnapshotPoint.step, reached]
        · simpa [Schedule.run, HistogramSystem.step, scanning, SnapshotPoint.step, reached]
            using Or.inr returned
      · have next : (system.step ceil .snapshot).reader = .scanning out percentile rank
            (cumulative + system.histogram.buckets.get bucket) ahead := by
          simp [HistogramSystem.step, scanning, SnapshotPoint.step, reached]
        obtain ⟨later, bound, ended, shown⟩ := ih next
        exact ⟨.snapshot :: later, bound, ended, shown⟩

/-- From a scan for the percentile on, a reader on its own returns what it has loaded. -/
def ReturnsFrom (ceil : Percentile → UInt64 → UInt64) (percentile : Percentile) : Prop :=
  ∀ {threads : Nat} {system : HistogramSystem threads} {out : LatencySnapshot}
    {rank cumulative : UInt64} {ahead : List (Fin kBucketCount)},
    system.reader = .scanning out percentile rank cumulative ahead →
    ∃ later, ∃ snapshot ∈ (Schedule.run (HistogramSystem.step ceil) system later).snapshots,
      snapshot.count = out.count ∧ snapshot.minNs = out.minNs ∧ snapshot.maxNs = out.maxNs

theorem returnsFrom_last (ceil : Percentile → UInt64 → UInt64) : ReturnsFrom ceil .p999 := by
  intro threads system out rank cumulative ahead scanning
  obtain ⟨later, bound, _, shown⟩ := exists_scan_end scanning
  exact ⟨later, out.store bound .p999, shown _ rfl, rfl, rfl, rfl⟩

theorem returnsFrom_next {percentile following : Percentile}
    (next : percentile.next? = some following) (rest : ReturnsFrom ceil following) :
    ReturnsFrom ceil percentile := by
  intro threads system out rank cumulative ahead scanning
  obtain ⟨later, bound, ended, _⟩ := exists_scan_end scanning
  simp only [SnapshotPoint.endScan, next] at ended
  obtain ⟨last, snapshot, member, count, minNs, maxNs⟩ := rest ended
  refine ⟨later ++ last, snapshot, ?_, ?_, ?_, ?_⟩
  · rwa [Schedule.run_append]
  · rw [count, SnapshotPoint.count_store]
  · rw [minNs]
    cases percentile <;> rfl
  · rw [maxNs]
    cases percentile <;> rfl

theorem returnsFrom_first (ceil : Percentile → UInt64 → UInt64) : ReturnsFrom ceil .p50 :=
  returnsFrom_next rfl (returnsFrom_next rfl (returnsFrom_next rfl (returnsFrom_last ceil)))

theorem past_max_eq_zero (none : ∀ id, (system.recorders id).finished = []) :
    system.past .max = 0 := by
  refine Finset.sum_eq_zero (fun id _ => ?_)
  rw [Recorder.past, none id]
  cases (system.recorders id).point <;> rfl

/-- The condition is exact step by step: where the reader is about to load `min_ns_` too early,
it can go on to return a snapshot that is not genuine. -/
theorem misleading_of_not_settled {events : List (HistogramEvent threads)}
    {event : HistogramEvent threads}
    (early : ¬(Schedule.run (HistogramSystem.step ceil) {} events).Settled event) :
    ∃ later, ¬(Schedule.run (HistogramSystem.step ceil) {} (events ++ later)).Genuine := by
  have reflected : (Schedule.run (HistogramSystem.step ceil) {} events).Reflected :=
    reflected_initial.run events
  have started : (Schedule.run (HistogramSystem.step ceil) {} events).reader.Started :=
    started_run ceil events
  simp only [Schedule.run_append]
  generalize Schedule.run (HistogramSystem.step ceil) {} events = system at *
  unfold Settled at early
  split at early
  · rename_i count loaded
    rw [loaded] at started
    simp only [not_or, not_exists, not_not] at early
    obtain ⟨none, positive⟩ := early
    have zero : system.histogram.maxNs = 0 := by
      have highest := reflected.histogram.maxNs
      rw [past_max_eq_zero none] at highest
      exact highest.attained.resolve_left (Multiset.notMem_zero _)
    have scanning : (Schedule.run (HistogramSystem.step ceil) system
        (List.replicate 3 .snapshot)).reader =
          SnapshotPoint.startScan ceil
            { count, minNs := system.histogram.minNs, maxNs := system.histogram.maxNs,
              totalNs := system.histogram.totalNs } .p50 := by
      simp [Schedule.run, List.replicate, HistogramSystem.step, loaded, SnapshotPoint.step]
    obtain ⟨later, snapshot, member, counted, minNs, maxNs⟩ := returnsFrom_first ceil scanning
    refine ⟨List.replicate 3 .snapshot ++ later, fun genuine => positive ?_⟩
    rw [Schedule.run_append] at genuine
    have order := (genuine snapshot member (by rw [counted]; exact started)).le
    rw [minNs, maxNs, zero] at order
    exact UInt64.le_antisymm order UInt64.zero_le
  · exact absurd trivial early

end HistogramSystem

end Lob
