import Lob.LatencyHistogram.Threads

/-!
# Concurrent recording loses nothing

While no call of `record` is in progress, the figures of the histogram are exactly those of
the recorded values. In between, a snapshot can rely on its ranks: it loads the count first
and scans the buckets afterwards, every call adds to its bucket before it counts, and buckets
only grow, so what is still ahead of a scan always covers the rank it is looking for.

The counters have 64 bits and wrap. The last of `2^64` calls shows that the order between the
buckets and the count is lost then.
-/

namespace Lob

open AtomicLatencyHistogram

/-! ### Growing buckets -/

theorem AtomicLatencyHistogram.bucketSum_append (histogram : AtomicLatencyHistogram)
    (front back : List (Fin kBucketCount)) :
    histogram.bucketSum (front ++ back) = histogram.bucketSum front + histogram.bucketSum back := by
  simp [bucketSum]

theorem AtomicLatencyHistogram.bucketSum_mono {histogram histogram' : AtomicLatencyHistogram}
    (grows : ∀ bucket, (histogram.buckets.get bucket).toNat ≤
      (histogram'.buckets.get bucket).toNat) (buckets : List (Fin kBucketCount)) :
    histogram.bucketSum buckets ≤ histogram'.bucketSum buckets := by
  induction buckets with
  | nil => exact Nat.le_refl _
  | cons bucket buckets ih =>
      rw [bucketSum_cons, bucketSum_cons]
      exact Nat.add_le_add (grows bucket) ih

/-! ### Scans that find their rank -/

/-- A count that was loaded is covered by the buckets. -/
def Covers (histogram : AtomicLatencyHistogram) (count : UInt64) : Prop :=
  count.toNat ≤ histogram.bucketSum (List.finRange kBucketCount)

/-- A scan has not reached its rank yet, but the buckets ahead will. -/
structure ScanCovers (histogram : AtomicLatencyHistogram) (count rank cumulative : UInt64)
    (ahead : List (Fin kBucketCount)) : Prop where
  rank_le : rank ≤ count
  short : cumulative < rank
  covers : count.toNat ≤ cumulative.toNat + histogram.bucketSum ahead
  behind : ∃ before, before ++ ahead = List.finRange kBucketCount ∧
    cumulative.toNat ≤ histogram.bucketSum before

theorem ScanCovers.ahead_ne_nil {histogram : AtomicLatencyHistogram}
    {count rank cumulative : UInt64} {ahead : List (Fin kBucketCount)}
    (scan : ScanCovers histogram count rank cumulative ahead) : ahead ≠ [] := by
  rintro rfl
  have covers := scan.covers
  have short := UInt64.lt_iff_toNat_lt.mp scan.short
  have rank_le := UInt64.le_iff_toNat_le.mp scan.rank_le
  rw [bucketSum_nil] at covers
  omega

namespace SnapshotPoint

/-- A call of `snapshot` goes on only with a positive count. -/
def Started : SnapshotPoint → Prop
  | .outside => True
  | .loadedCount count => count ≠ 0
  | .loadedMin count _ => count ≠ 0
  | .loadedMax count _ _ => count ≠ 0
  | .scanning out _ _ _ _ => out.count ≠ 0

theorem count_store (out : LatencySnapshot) (bound : UInt64) (percentile : Percentile) :
    (out.store bound percentile).count = out.count := by
  cases percentile <;> rfl

theorem started_endScan (ceil : Percentile → UInt64 → UInt64) {out : LatencySnapshot}
    (nonzero : out.count ≠ 0) (percentile : Percentile) (bound : UInt64) :
    (endScan ceil out percentile bound).1.Started := by
  rw [← count_store out bound percentile] at nonzero
  unfold endScan
  dsimp only
  split
  · exact nonzero
  · trivial

theorem Started.step {point : SnapshotPoint} (started : point.Started)
    (ceil : Percentile → UInt64 → UInt64) (histogram : AtomicLatencyHistogram) :
    (point.step ceil histogram).1.Started := by
  cases point with
  | outside =>
      simp only [SnapshotPoint.step]
      split
      · trivial
      · rename_i nonzero
        exact nonzero
  | loadedCount count => exact started
  | loadedMin count minNs => exact started
  | loadedMax count minNs maxNs => exact started
  | scanning out percentile rank cumulative ahead =>
      cases ahead with
      | nil => exact started_endScan ceil started percentile _
      | cons bucket ahead =>
          simp only [SnapshotPoint.step]
          split
          · exact started_endScan ceil started percentile _
          · exact started

/-- The count that the reader has loaded, and the scan it has begun, are covered. -/
def Covered (histogram : AtomicLatencyHistogram) : SnapshotPoint → Prop
  | .outside => True
  | .loadedCount count => Covers histogram count
  | .loadedMin count _ => Covers histogram count
  | .loadedMax count _ _ => Covers histogram count
  | .scanning out _ rank cumulative ahead =>
      Covers histogram out.count ∧ ScanCovers histogram out.count rank cumulative ahead

theorem Covered.mono {histogram histogram' : AtomicLatencyHistogram} {point : SnapshotPoint}
    (covered : point.Covered histogram)
    (grows : ∀ bucket, (histogram.buckets.get bucket).toNat ≤
      (histogram'.buckets.get bucket).toNat) : point.Covered histogram' := by
  have wider {count : UInt64} (covers : Covers histogram count) : Covers histogram' count :=
    Nat.le_trans covers (bucketSum_mono grows _)
  cases point with
  | outside => trivial
  | loadedCount count => exact wider covered
  | loadedMin count minNs => exact wider covered
  | loadedMax count minNs maxNs => exact wider covered
  | scanning out percentile rank cumulative ahead =>
      obtain ⟨covers, scan⟩ := covered
      obtain ⟨before, split, sum⟩ := scan.behind
      refine ⟨wider covers, scan.rank_le, scan.short, ?_, before, split, ?_⟩
      · exact scan.covers.trans (Nat.add_le_add_left (bucketSum_mono grows ahead) _)
      · exact sum.trans (bucketSum_mono grows before)

variable {ceil : Percentile → UInt64 → UInt64} {histogram : AtomicLatencyHistogram}

theorem covered_startScan (inRange : ∀ percentile count, ceil percentile count ≤ count)
    {out : LatencySnapshot} (nonzero : out.count ≠ 0) (covers : Covers histogram out.count)
    (percentile : Percentile) : (startScan ceil out percentile).Covered histogram := by
  have positive : 0 < out.count := UInt64.pos_iff_ne_zero.mpr nonzero
  refine ⟨covers, ?_, ?_, ?_, [], rfl, Nat.le_refl _⟩
  · split
    · exact UInt64.le_iff_toNat_le.mpr (UInt64.lt_iff_toNat_lt.mp positive)
    · exact inRange percentile out.count
  · split
    · decide
    · rename_i given
      exact UInt64.pos_iff_ne_zero.mpr given
  · exact Nat.le_trans covers (Nat.le_add_left _ _)

theorem covered_endScan (inRange : ∀ percentile count, ceil percentile count ≤ count)
    {out : LatencySnapshot} (nonzero : out.count ≠ 0) (covers : Covers histogram out.count)
    (percentile : Percentile) (bound : UInt64) :
    (endScan ceil out percentile bound).1.Covered histogram := by
  rw [← count_store out bound percentile] at nonzero covers
  unfold endScan
  dsimp only
  split
  · exact covered_startScan inRange nonzero covers _
  · trivial

/-- A step of the reader, as long as the buckets can be added up. -/
theorem Covered.step (inRange : ∀ percentile count, ceil percentile count ≤ count)
    (counted : histogram.count.toNat ≤ histogram.bucketSum (List.finRange kBucketCount))
    (fits : histogram.bucketSum (List.finRange kBucketCount) < 2 ^ 64) {point : SnapshotPoint}
    (started : point.Started) (covered : point.Covered histogram) :
    (point.step ceil histogram).1.Covered histogram := by
  cases point with
  | outside =>
      simp only [SnapshotPoint.step]
      split
      · trivial
      · exact counted
  | loadedCount count => exact covered
  | loadedMin count minNs => exact covered
  | loadedMax count minNs maxNs =>
      let out : LatencySnapshot := { count, minNs, maxNs, totalNs := histogram.totalNs }
      have nonzero : out.count ≠ 0 := started
      have covers : Covers histogram out.count := covered
      exact covered_startScan inRange nonzero covers .p50
  | scanning out percentile rank cumulative ahead =>
      obtain ⟨covers, scan⟩ := covered
      obtain ⟨before, split, sum⟩ := scan.behind
      cases ahead with
      | nil => exact absurd rfl scan.ahead_ne_nil
      | cons bucket ahead =>
          simp only [SnapshotPoint.step]
          split
          · exact covered_endScan inRange started covers percentile _
          · rename_i short
            have total := histogram.bucketSum_append before (bucket :: ahead)
            rw [split, bucketSum_cons] at total
            have next : (cumulative + histogram.buckets.get bucket).toNat =
                cumulative.toNat + (histogram.buckets.get bucket).toNat := by
              rw [UInt64.toNat_add, Nat.mod_eq_of_lt (by omega)]
            have covers' := scan.covers
            rw [bucketSum_cons] at covers'
            refine ⟨covers, scan.rank_le, UInt64.not_le.mp short, ?_, before ++ [bucket], ?_, ?_⟩
            · rw [next]
              omega
            · rw [List.append_assoc]
              exact split
            · rw [next, bucketSum_append, bucketSum_cons, bucketSum_nil]
              omega

end SnapshotPoint

namespace HistogramSystem

variable {threads : Nat} {ceil : Percentile → UInt64 → UInt64} {system : HistogramSystem threads}

/-- Every call adds to its bucket before it counts. -/
theorem Reflected.count_le_bucketSum (reflected : system.Reflected)
    (fits : system.recorded.card < 2 ^ 64) :
    system.histogram.count.toNat ≤
      system.histogram.bucketSum (List.finRange kBucketCount) := by
  have fewer : (system.past .count).card ≤ system.recorded.card :=
    Multiset.card_le_card (system.past_antitone (by decide))
  rw [reflected.histogram.buckets.bucketSum_finRange fits, reflected.histogram.count,
    UInt64.toNat_ofNat_of_lt' (show (system.past .count).card < 2 ^ 64 by omega)]
  exact fewer

theorem Reflected.buckets_grow (reflected : system.Reflected) (event : HistogramEvent threads)
    (fits : (system.step ceil event).recorded.card < 2 ^ 64) (bucket : Fin kBucketCount) :
    (system.histogram.buckets.get bucket).toNat ≤
      ((system.step ceil event).histogram.buckets.get bucket).toNat := by
  have grows := reflected.past_mono ceil event .bucket
  have before := Nat.lt_of_le_of_lt (Multiset.card_le_card grows) fits
  rw [reflected.histogram.buckets.toNat_get before,
    (reflected.step event).histogram.buckets.toNat_get fits]
  exact Multiset.countP_le_of_le _ grows

theorem started_step (started : system.reader.Started) (ceil : Percentile → UInt64 → UInt64)
    (event : HistogramEvent threads) : (system.step ceil event).reader.Started := by
  cases event with
  | record id value spurious => exact started
  | snapshot => exact started.step ceil system.histogram

theorem started_run (ceil : Percentile → UInt64 → UInt64)
    (events : List (HistogramEvent threads)) :
    (Schedule.run (HistogramSystem.step ceil) {} events).reader.Started := by
  have start : ({} : HistogramSystem threads).reader.Started := trivial
  exact Schedule.run_invariant (P := fun system : HistogramSystem threads => system.reader.Started)
    (fun _ event known => started_step known ceil event) start events

/-- What holds of the reader in every state before the counters wrap. -/
def ReaderCovered (system : HistogramSystem threads) : Prop :=
  system.recorded.card < 2 ^ 64 → system.reader.Covered system.histogram

theorem ReaderCovered.step (inRange : ∀ percentile count, ceil percentile count ≤ count)
    (reflected : system.Reflected) (started : system.reader.Started)
    (covered : system.ReaderCovered) (event : HistogramEvent threads) :
    (system.step ceil event).ReaderCovered := by
  intro fits
  have grows := reflected.past_mono ceil event .bucket
  have before : system.recorded.card < 2 ^ 64 :=
    Nat.lt_of_le_of_lt (Multiset.card_le_card grows) fits
  cases event with
  | record id value spurious =>
      exact (covered before).mono (reflected.buckets_grow _ fits)
  | snapshot =>
      refine SnapshotPoint.Covered.step inRange (reflected.count_le_bucketSum before) ?_ started
        (covered before)
      rwa [reflected.histogram.buckets.bucketSum_finRange before]

/-! ### Nothing is lost -/

/-- The figures of a histogram are exactly those of the recorded values. -/
structure Exact (system : HistogramSystem threads) : Prop where
  count : system.histogram.count.toNat = system.recorded.card
  sum : system.histogram.bucketSum (List.finRange kBucketCount) = system.recorded.card
  buckets : ∀ bucket, (system.histogram.buckets.get bucket).toNat =
    system.recorded.countP (fun value => bucketFor value = bucket)
  totalNs : system.histogram.totalNs.toNat = (system.recorded.map UInt64.toNat).sum % 2 ^ 64
  minNs : system.histogram.minNs ∈ system.recorded ∧
    ∀ value ∈ system.recorded, system.histogram.minNs ≤ value
  maxNs : system.histogram.maxNs ∈ system.recorded ∧
    ∀ value ∈ system.recorded, value ≤ system.histogram.maxNs

theorem Reflected.exact (reflected : system.Reflected) (quiet : system.Quiet)
    (some : system.recorded ≠ 0) (fits : system.recorded.card < 2 ^ 64) : system.Exact := by
  have tallies := reflected.tallies quiet
  obtain ⟨witness, member⟩ := Multiset.exists_mem_of_ne_zero some
  refine ⟨tallies.toNat_count fits, tallies.buckets.bucketSum_finRange fits,
    tallies.buckets.toNat_get fits, ?_, ⟨?_, tallies.minNs.le⟩, ⟨?_, tallies.maxNs.le⟩⟩
  · rw [tallies.totalNs, UInt64.toNat_ofNat']
  · exact tallies.minNs.mem member
  · exact tallies.maxNs.mem member

/-- Concurrent recording loses nothing. In every state of every run with fewer than `2^64`
calls, the buckets together hold at least the count and no scan of a snapshot runs off their
end; and if no call is in progress, all figures are exact. -/
theorem recording_exact (inRange : ∀ percentile count, ceil percentile count ≤ count)
    (events : List (HistogramEvent threads)) :
    let system := Schedule.run (HistogramSystem.step ceil) {} events
    system.recorded.card < 2 ^ 64 →
      (system.Quiet → system.recorded ≠ 0 → system.Exact) ∧
      system.histogram.count.toNat ≤
        system.histogram.bucketSum (List.finRange kBucketCount) ∧
      ∀ out percentile rank cumulative,
        system.reader ≠ .scanning out percentile rank cumulative [] := by
  intro system fits
  have known : system.Reflected ∧ system.reader.Started ∧ system.ReaderCovered :=
    Schedule.run_invariant
      (P := fun system : HistogramSystem threads =>
        system.Reflected ∧ system.reader.Started ∧ system.ReaderCovered)
      (fun _ event ⟨reflected, started, covered⟩ => ⟨reflected.step event,
        started_step started ceil event, covered.step inRange reflected started event⟩)
      ⟨reflected_initial, trivial, fun _ => trivial⟩ events
  obtain ⟨reflected, _, covered⟩ := known
  refine ⟨fun quiet some => reflected.exact quiet some fits, reflected.count_le_bucketSum fits,
    fun out percentile rank cumulative scanning => ?_⟩
  have scan := covered fits
  rw [scanning] at scan
  exact scan.2.ahead_ne_nil rfl

/-- Two threads; one finds the minimum lowered under its hands and fails once for no reason. -/
theorem recording_exact_two_threads :
    let events : List (HistogramEvent 2) :=
      List.replicate 4 (.record 0 5 false) ++ List.replicate 7 (.record 1 3 false) ++
        List.replicate 3 (.record 0 0 false) ++ [.record 0 0 true, .record 0 0 false]
    let system := Schedule.run (HistogramSystem.step (fun _ count => count)) {} events
    system.Quiet ∧ system.recorded = {5, 3} ∧
      (system.recorded.card < 2 ^ 64 →
        (system.Quiet → system.recorded ≠ 0 → system.Exact) ∧
        system.histogram.count.toNat ≤
          system.histogram.bucketSum (List.finRange kBucketCount) ∧
        ∀ out percentile rank cumulative,
          system.reader ≠ .scanning out percentile rank cumulative []) :=
  ⟨by decide +kernel, by decide +kernel, recording_exact (fun _ _ => UInt64.le_refl _) _⟩

/-! ### After `2^64` calls -/

/-- A thread on its own finishes a call in seven steps. -/
theorem recorder_call {system : HistogramSystem 1} {finished : List UInt64}
    (outside : system.recorders 0 = ⟨.outside, finished⟩) :
    (Schedule.run (HistogramSystem.step ceil) system
        (List.replicate 7 (.record 0 0 false))).recorders 0 =
      ⟨.outside, finished ++ [0]⟩ := by
  have never : ¬(0 : UInt64) > system.histogram.maxNs := UInt64.not_lt.mpr UInt64.zero_le
  by_cases lower : (0 : UInt64) < system.histogram.minNs <;>
    simp [Schedule.run, List.replicate, HistogramSystem.step, Recorder.step, outside, lower, never,
      addBucket]

theorem recorder_begin (ceil : Percentile → UInt64 → UInt64) {system : HistogramSystem 1}
    {finished : List UInt64} (outside : system.recorders 0 = ⟨.outside, finished⟩) :
    (system.step ceil (.record 0 0 false)).recorders 0 = ⟨.bucketed 0, finished⟩ := by
  simp [HistogramSystem.step, Recorder.step, outside]

theorem exists_calls (ceil : Percentile → UInt64 → UInt64) (calls : Nat) :
    ∃ events : List (HistogramEvent 1),
      (Schedule.run (HistogramSystem.step ceil) {} events).recorders 0 =
        ⟨.outside, List.replicate calls 0⟩ := by
  induction calls with
  | zero => exact ⟨[], rfl⟩
  | succ calls ih =>
      obtain ⟨events, reached⟩ := ih
      refine ⟨events ++ List.replicate 7 (.record 0 0 false), ?_⟩
      rw [Schedule.run_append, recorder_call reached, List.replicate_succ']

theorem past_one (system : HistogramSystem 1) (stage : Stage) :
    system.past stage = (system.recorders 0).past stage := by
  rw [past, Fin.sum_univ_one]

/-- When the buckets have wrapped and the count has not, they hold less than it says. -/
theorem bucketSum_lt_count {calls : Nat} (wraps : calls + 1 = 2 ^ 64)
    {system : HistogramSystem 1} (reflected : system.Reflected)
    (bucketed : system.recorders 0 = ⟨.bucketed 0, List.replicate calls 0⟩) :
    system.histogram.bucketSum (List.finRange kBucketCount) < system.histogram.count.toNat := by
  have buckets := reflected.histogram.buckets
  have count := reflected.histogram.count
  have entered : system.past .bucket = Multiset.replicate (calls + 1) 0 := by
    rw [past_one, bucketed, Multiset.replicate_succ, ← Multiset.singleton_add, add_comm]
    rfl
  have counted : (system.past .count).card = calls := by
    rw [past_one, bucketed]
    exact (congrArg Multiset.card (add_zero _)).trans List.length_replicate
  have empty (bucket : Fin kBucketCount) : (system.histogram.buckets.get bucket).toNat = 0 := by
    rw [buckets, entered, ← Multiset.coe_replicate, Multiset.coe_countP, List.countP_replicate,
      wraps]
    split <;> rfl
  have none : system.histogram.bucketSum (List.finRange kBucketCount) = 0 := by
    rw [bucketSum, List.sum_eq_zero]
    simp [empty]
  rw [none, count, counted, UInt64.toNat_ofNat_of_lt' (show calls < 2 ^ 64 by omega)]
  omega

/-- The last of `2^64` calls lets its bucket wrap before the count. -/
theorem buckets_wrap_first :
    ∃ events : List (HistogramEvent 1),
      let system := Schedule.run (HistogramSystem.step (fun _ count => count)) {} events
      system.histogram.bucketSum (List.finRange kBucketCount) <
        system.histogram.count.toNat := by
  obtain ⟨calls, wraps⟩ : ∃ calls, calls + 1 = 2 ^ 64 := ⟨2 ^ 64 - 1, rfl⟩
  obtain ⟨events, reached⟩ := exists_calls (fun _ count => count) calls
  refine ⟨events ++ [.record 0 0 false], ?_⟩
  apply bucketSum_lt_count wraps (reflected_initial.run _)
  rw [Schedule.run_append]
  exact recorder_begin (fun _ count => count) reached

end HistogramSystem

end Lob
