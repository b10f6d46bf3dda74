import Lob.LatencyHistogram
import Lob.Library.Schedule
import Lob.Library.Waiting

/-!
# Threads at the latency histogram

Any number of threads call `record`, and one thread calls `snapshot`. Each access to an
atomic is one step. A failed `compare_exchange_weak` puts the value it found into the
thread's copy and the loop tests again; it may also fail for no reason.

A call of `record` passes five stages, one for each member that it updates. The finished
calls of a thread, and where it is in its current one, determine the values that have passed
each stage. At any time the histogram is what these values make of it, stage by stage: the
two loops pass a value on exactly when the extreme they maintain accounts for it.
-/

namespace Lob

/-! ### Calls of `record` -/

/-- Where a thread is in its call of `record`. -/
inductive RecordPoint where
  | outside
  /-- `count_.fetch_add` comes next -/
  | bucketed (value : UInt64)
  /-- `total_ns_.fetch_add` comes next -/
  | counted (value : UInt64)
  /-- the load of `min_ns_` comes next -/
  | totalled (value : UInt64)
  /-- in the loop over `min_ns_`, with `current_min` -/
  | lowering (value current : UInt64)
  /-- the load of `max_ns_` comes next -/
  | lowered (value : UInt64)
  /-- in the loop over `max_ns_`, with `current_max` -/
  | raising (value current : UInt64)
  deriving DecidableEq, Repr

/-- A thread that records: where it is, and the values of the calls that have returned. -/
structure Recorder where
  point : RecordPoint := .outside
  finished : List UInt64 := []
  deriving DecidableEq, Repr

/-- The next step of a thread. A thread outside calls `record` with the given value, and
`spurious` lets a `compare_exchange_weak` fail although it finds what it expects. -/
def Recorder.step (recorder : Recorder) (histogram : AtomicLatencyHistogram) (value : UInt64)
    (spurious : Bool) : AtomicLatencyHistogram × Recorder :=
  match recorder.point with
  | .outside =>
      (histogram.addBucket (bucketFor value), { recorder with point := .bucketed value })
  | .bucketed value =>
      ({ histogram with count := histogram.count + 1 },
        { recorder with point := .counted value })
  | .counted value =>
      ({ histogram with totalNs := histogram.totalNs + value },
        { recorder with point := .totalled value })
  | .totalled value =>
      (histogram, { recorder with point := .lowering value histogram.minNs })
  | .lowering value current =>
      if value < current then
        if histogram.minNs = current ∧ spurious = false then
          ({ histogram with minNs := value }, { recorder with point := .lowered value })
        else (histogram, { recorder with point := .lowering value histogram.minNs })
      else (histogram, { recorder with point := .lowered value })
  | .lowered value =>
      (histogram, { recorder with point := .raising value histogram.maxNs })
  | .raising value current =>
      if value > current then
        if histogram.maxNs = current ∧ spurious = false then
          ({ histogram with maxNs := value },
            { point := .outside, finished := recorder.finished ++ [value] })
        else (histogram, { recorder with point := .raising value histogram.maxNs })
      else (histogram, { point := .outside, finished := recorder.finished ++ [value] })

/-! ### The reader -/

/-- The percentile whose bound a snapshot asks for next. -/
def Percentile.next? : Percentile → Option Percentile
  | .p50 => some .p95
  | .p95 => some .p99
  | .p99 => some .p999
  | .p999 => none

/-- Assign the bound of a percentile. -/
def LatencySnapshot.store (snapshot : LatencySnapshot) (bound : UInt64) :
    Percentile → LatencySnapshot
  | .p50 => { snapshot with p50Ns := bound }
  | .p95 => { snapshot with p95Ns := bound }
  | .p99 => { snapshot with p99Ns := bound }
  | .p999 => { snapshot with p999Ns := bound }

/-- Where the reader is in its call of `snapshot`. -/
inductive SnapshotPoint where
  | outside
  | loadedCount (count : UInt64)
  | loadedMin (count minNs : UInt64)
  | loadedMax (count minNs maxNs : UInt64)
  /-- in the loop of `percentileUpperBound`, with the buckets still ahead -/
  | scanning (out : LatencySnapshot) (percentile : Percentile) (rank cumulative : UInt64)
      (ahead : List (Fin kBucketCount))
  deriving DecidableEq, Repr

namespace SnapshotPoint

/-- The start of `percentileUpperBound`. -/
def startScan (ceil : Percentile → UInt64 → UInt64) (out : LatencySnapshot)
    (percentile : Percentile) : SnapshotPoint :=
  let ceiled := ceil percentile out.count
  let rank := if ceiled = 0 then 1 else ceiled
  .scanning out percentile rank 0 (List.finRange kBucketCount)

/-- The return of `percentileUpperBound`: the next percentile, or the end of the call. -/
def endScan (ceil : Percentile → UInt64 → UInt64) (out : LatencySnapshot)
    (percentile : Percentile) (bound : UInt64) : SnapshotPoint × Option LatencySnapshot :=
  let out := out.store bound percentile
  match percentile.next? with
  | some percentile => (startScan ceil out percentile, none)
  | none => (.outside, some out)

/-- The next step of `snapshot`, and its result if the call returns with it. -/
def step (ceil : Percentile → UInt64 → UInt64) (histogram : AtomicLatencyHistogram) :
    SnapshotPoint → SnapshotPoint × Option LatencySnapshot
  | .outside =>
      if histogram.count = 0 then (.outside, some {}) else (.loadedCount histogram.count, none)
  | .loadedCount count => (.loadedMin count histogram.minNs, none)
  | .loadedMin count minNs => (.loadedMax count minNs histogram.maxNs, none)
  | .loadedMax count minNs maxNs =>
      (startScan ceil { count, minNs, maxNs, totalNs := histogram.totalNs } .p50, none)
  | .scanning out percentile _ _ [] => endScan ceil out percentile histogram.maxNs
  | .scanning out percentile rank cumulative (bucket :: ahead) =>
      let cumulative := cumulative + histogram.buckets.get bucket
      if cumulative ≥ rank then endScan ceil out percentile (bucketUpperBound bucket)
      else (.scanning out percentile rank cumulative ahead, none)

end SnapshotPoint

/-! ### The system -/

/-- The histogram, its threads and the snapshots that have been returned. -/
structure HistogramSystem (threads : Nat) where
  histogram : AtomicLatencyHistogram := {}
  recorders : Fin threads → Recorder := fun _ => {}
  reader : SnapshotPoint := .outside
  snapshots : List LatencySnapshot := []

/-- Whose step is next. -/
inductive HistogramEvent (threads : Nat) where
  | record (id : Fin threads) (value : UInt64) (spurious : Bool)
  | snapshot
  deriving DecidableEq, Repr

def HistogramSystem.step {threads : Nat} (ceil : Percentile → UInt64 → UInt64)
    (system : HistogramSystem threads) : HistogramEvent threads → HistogramSystem threads
  | .record id value spurious =>
      let (histogram, recorder) := (system.recorders id).step system.histogram value spurious
      { system with histogram, recorders := Function.update system.recorders id recorder }
  | .snapshot =>
      let (reader, returned) := system.reader.step ceil system.histogram
      { system with reader, snapshots := system.snapshots ++ returned.toList }

/-! ### Stages -/

/-- The updates of a call of `record`, in their order. -/
inductive Stage where
  | bucket
  | count
  | total
  | min
  | max
  deriving DecidableEq, Repr

def Stage.level : Stage → Nat
  | .bucket => 1
  | .count => 2
  | .total => 3
  | .min => 4
  | .max => 5

/-- What a value does to the histogram when it passes a stage. -/
def Stage.pass (histogram : AtomicLatencyHistogram) (value : UInt64) :
    Stage → AtomicLatencyHistogram
  | .bucket => histogram.addBucket (bucketFor value)
  | .count => { histogram with count := histogram.count + 1 }
  | .total => { histogram with totalNs := histogram.totalNs + value }
  | .min => { histogram with minNs := if value < histogram.minNs then value else histogram.minNs }
  | .max => { histogram with maxNs := if value > histogram.maxNs then value else histogram.maxNs }

/-- The last stage that the current call has passed, and its value. -/
def RecordPoint.progress : RecordPoint → Option (Nat × UInt64)
  | .outside => none
  | .bucketed value => some (1, value)
  | .counted value => some (2, value)
  | .totalled value => some (3, value)
  | .lowering value _ => some (3, value)
  | .lowered value => some (4, value)
  | .raising value _ => some (4, value)

/-- The value of the current call if it has passed a stage. -/
def RecordPoint.past (stage : Stage) (point : RecordPoint) : Multiset UInt64 :=
  match point.progress with
  | some (level, value) => if stage.level ≤ level then {value} else 0
  | none => 0

/-- The values of a thread that have passed a stage. -/
def Recorder.past (stage : Stage) (recorder : Recorder) : Multiset UInt64 :=
  (recorder.finished : Multiset UInt64) + recorder.point.past stage

theorem RecordPoint.past_of_outside {point : RecordPoint} (outside : point = .outside)
    (stage : Stage) : point.past stage = 0 := by
  rw [outside]
  rfl

/-- Nothing passes a stage before it has passed the earlier ones. -/
theorem Recorder.past_antitone {early late : Stage} (before : early.level ≤ late.level)
    (recorder : Recorder) : recorder.past late ≤ recorder.past early := by
  apply add_le_add_right
  unfold RecordPoint.past
  split
  · rename_i level value _
    by_cases passed : late.level ≤ level
    · rw [if_pos passed, if_pos (before.trans passed)]
    · rw [if_neg passed]
      exact Multiset.zero_le _
  · exact le_refl _

/-- What a thread's copy of an extreme is worth: the extreme has only moved on. -/
def RecordPoint.Agrees (histogram : AtomicLatencyHistogram) : RecordPoint → Prop
  | .lowering _ current => histogram.minNs ≤ current
  | .raising _ current => current ≤ histogram.maxNs
  | .outside | .bucketed _ | .counted _ | .totalled _ | .lowered _ => True

theorem RecordPoint.Agrees.mono {histogram histogram' : AtomicLatencyHistogram}
    {point : RecordPoint} (agrees : point.Agrees histogram)
    (lower : histogram'.minNs ≤ histogram.minNs) (higher : histogram.maxNs ≤ histogram'.maxNs) :
    point.Agrees histogram' := by
  cases point with
  | lowering value current => exact UInt64.le_trans lower agrees
  | raising value current => exact UInt64.le_trans agrees higher
  | outside | bucketed | counted | totalled | lowered => trivial

theorem Stage.minNs_pass_le (stage : Stage) (histogram : AtomicLatencyHistogram)
    (value : UInt64) : (stage.pass histogram value).minNs ≤ histogram.minNs := by
  cases stage with
  | min =>
      simp only [Stage.pass]
      split
      · rename_i less
        exact UInt64.le_of_lt less
      · exact UInt64.le_refl _
  | bucket | count | total | max => exact UInt64.le_refl _

theorem Stage.le_maxNs_pass (stage : Stage) (histogram : AtomicLatencyHistogram)
    (value : UInt64) : histogram.maxNs ≤ (stage.pass histogram value).maxNs := by
  cases stage with
  | max =>
      simp only [Stage.pass]
      split
      · rename_i greater
        exact UInt64.le_of_lt greater
      · exact UInt64.le_refl _
  | bucket | count | total | min => exact UInt64.le_refl _

/-- What a step of a thread amounts to: its value passes a stage, or nothing changes. -/
inductive Recorder.Advances (recorder : Recorder) (histogram : AtomicLatencyHistogram) :
    AtomicLatencyHistogram × Recorder → Prop
  | passes {next : Recorder} (stage : Stage) (value : UInt64)
      (entered : ∀ other, next.past other =
        recorder.past other + if other = stage then {value} else 0)
      (agrees : next.point.Agrees (stage.pass histogram value)) :
      Advances recorder histogram (stage.pass histogram value, next)
  | waits {next : Recorder} (same : ∀ stage, next.past stage = recorder.past stage)
      (agrees : next.point.Agrees histogram) : Advances recorder histogram (histogram, next)

section Advances

variable {finished : List UInt64} {point next : RecordPoint} {stage : Stage} {value : UInt64}

theorem Stage.level_pos (stage : Stage) : 1 ≤ stage.level := by cases stage <;> decide

theorem Stage.level_injective {stage stage' : Stage} (same : stage.level = stage'.level) :
    stage = stage' := by
  cases stage <;> cases stage' <;> first | rfl | contradiction

/-- A point that goes on within its call from the stage before. -/
theorem Recorder.past_enters
    (before : point.progress = none ∧ stage.level = 1 ∨
      ∃ level, point.progress = some (level, value) ∧ stage.level = level + 1)
    (after : next.progress = some (stage.level, value)) (other : Stage) :
    Recorder.past other ⟨next, finished⟩ =
      Recorder.past other ⟨point, finished⟩ + if other = stage then {value} else 0 := by
  have positive := other.level_pos
  have same : other = stage ↔ other.level = stage.level :=
    ⟨congrArg Stage.level, Stage.level_injective⟩
  simp only [Recorder.past, add_assoc, same]
  congr 1
  rcases before with ⟨none, first⟩ | ⟨level, some, following⟩
  · simp only [RecordPoint.past, none, after, first, zero_add]
    exact if_congr (by omega) rfl rfl
  · simp only [RecordPoint.past, some, after, following]
    by_cases earlier : other.level ≤ level
    · rw [if_pos (by omega), if_pos earlier, if_neg (by omega), add_zero]
    · rw [if_neg earlier, zero_add]
      exact if_congr (by omega) rfl rfl

theorem Recorder.past_stays (same : next.progress = point.progress) (stage : Stage) :
    Recorder.past stage ⟨next, finished⟩ = Recorder.past stage ⟨point, finished⟩ := by
  simp only [Recorder.past, RecordPoint.past, same]

/-- A call that returns has passed the last stage. -/
theorem Recorder.past_returns (last : point.progress = some (4, value)) (other : Stage) :
    Recorder.past other ⟨.outside, finished ++ [value]⟩ =
      Recorder.past other ⟨point, finished⟩ + if other = .max then {value} else 0 := by
  rw [Recorder.past, Recorder.past, RecordPoint.past_of_outside rfl, add_zero,
    ← Multiset.coe_add, Multiset.coe_singleton, add_assoc]
  congr 1
  simp only [RecordPoint.past, last]
  cases other <;> simp [Stage.level]

end Advances

theorem Recorder.advances {recorder : Recorder} {histogram : AtomicLatencyHistogram}
    (agrees : recorder.point.Agrees histogram) (value : UInt64) (spurious : Bool) :
    recorder.Advances histogram (recorder.step histogram value spurious) := by
  obtain ⟨point, finished⟩ := recorder
  cases point with
  | outside => exact .passes .bucket value (past_enters (.inl ⟨rfl, rfl⟩) rfl) trivial
  | bucketed value => exact .passes .count value (past_enters (.inr ⟨1, rfl, rfl⟩) rfl) trivial
  | counted value => exact .passes .total value (past_enters (.inr ⟨2, rfl, rfl⟩) rfl) trivial
  | totalled value => exact .waits (past_stays rfl) (UInt64.le_refl _)
  | lowering value current =>
      have enters (other : Stage) : Recorder.past other ⟨.lowered value, finished⟩ =
          Recorder.past other ⟨.lowering value current, finished⟩ +
            if other = .min then {value} else 0 := past_enters (.inr ⟨3, rfl, rfl⟩) rfl other
      simp only [Recorder.step]
      split
      · rename_i less
        split
        · rename_i expected
          have passed : Stage.min.pass histogram value = { histogram with minNs := value } := by
            rw [Stage.pass, if_pos (expected.1 ▸ less)]
          rw [← passed]
          exact .passes .min value enters trivial
        · exact .waits (past_stays rfl) (UInt64.le_refl _)
      · rename_i notLess
        have passed : Stage.min.pass histogram value = histogram := by
          rw [Stage.pass, if_neg]
          exact UInt64.not_lt.mpr (UInt64.le_trans agrees (UInt64.not_lt.mp notLess))
        nth_rewrite 2 [← passed]
        exact .passes .min value enters trivial
  | lowered value => exact .waits (past_stays rfl) (UInt64.le_refl _)
  | raising value current =>
      have returns (other : Stage) : Recorder.past other ⟨.outside, finished ++ [value]⟩ =
          Recorder.past other ⟨.raising value current, finished⟩ +
            if other = .max then {value} else 0 := past_returns rfl other
      simp only [Recorder.step]
      split
      · rename_i greater
        split
        · rename_i expected
          have passed : Stage.max.pass histogram value = { histogram with maxNs := value } := by
            rw [Stage.pass, if_pos (expected.1 ▸ greater)]
          rw [← passed]
          exact .passes .max value returns trivial
        · exact .waits (past_stays rfl) (UInt64.le_refl _)
      · rename_i notGreater
        have passed : Stage.max.pass histogram value = histogram := by
          rw [Stage.pass, if_neg]
          exact UInt64.not_lt.mpr (UInt64.le_trans (UInt64.not_lt.mp notGreater) agrees)
        nth_rewrite 2 [← passed]
        exact .passes .max value returns trivial

/-! ### The histogram, stage by stage -/

namespace AtomicLatencyHistogram

/-- The histogram is what the values that have passed each stage make of it. -/
structure Reflects (histogram : AtomicLatencyHistogram) (past : Stage → Multiset UInt64) :
    Prop where
  buckets : histogram.BucketsCount (past .bucket)
  count : histogram.count = UInt64.ofNat (past .count).card
  totalNs : histogram.totalNs = UInt64.ofNat ((past .total).map UInt64.toNat).sum
  minNs : Lowest histogram.minNs (past .min)
  maxNs : Highest histogram.maxNs (past .max)

theorem Reflects.pass {histogram : AtomicLatencyHistogram} {past past' : Stage → Multiset UInt64}
    (reflects : histogram.Reflects past) {stage : Stage} {value : UInt64}
    (entered : ∀ other, past' other = past other + if other = stage then {value} else 0) :
    (stage.pass histogram value).Reflects past' := by
  obtain rfl : past' = Function.update past stage (value ::ₘ past stage) := by
    funext other
    rw [entered, Function.update_apply]
    split
    · rename_i same
      rw [same, add_comm, Multiset.singleton_add]
    · exact add_zero _
  obtain ⟨buckets, count, totalNs, minNs, maxNs⟩ := reflects
  cases stage with
  | bucket => exact ⟨buckets.addBucket value, count, totalNs, minNs, maxNs⟩
  | count => exact ⟨buckets, add_one_eq_ofNat_card count value, totalNs, minNs, maxNs⟩
  | total => exact ⟨buckets, count, add_eq_ofNat_sum totalNs value, minNs, maxNs⟩
  | min => exact ⟨buckets, count, totalNs, minNs.insert, maxNs⟩
  | max => exact ⟨buckets, count, totalNs, minNs, maxNs.insert⟩

end AtomicLatencyHistogram

/-! ### The system -/

namespace HistogramSystem

variable {threads : Nat} {ceil : Percentile → UInt64 → UInt64} {system : HistogramSystem threads}

/-- The values that have passed a stage. -/
def past (system : HistogramSystem threads) (stage : Stage) : Multiset UInt64 :=
  ∑ id, (system.recorders id).past stage

/-- The values that were passed to `record`, one for each call. -/
def recorded (system : HistogramSystem threads) : Multiset UInt64 := system.past .bucket

/-- No call of `record` is in progress. -/
def Quiet (system : HistogramSystem threads) : Prop :=
  ∀ id, (system.recorders id).point = .outside

instance : Decidable system.Quiet := inferInstanceAs (Decidable (∀ _, _))

/-- What holds in every state. -/
structure Reflected (system : HistogramSystem threads) : Prop where
  histogram : system.histogram.Reflects system.past
  agrees : ∀ id, (system.recorders id).point.Agrees system.histogram

theorem past_initial (stage : Stage) : ({} : HistogramSystem threads).past stage = 0 :=
  Finset.sum_eq_zero (fun _ _ => rfl)

theorem reflected_initial : ({} : HistogramSystem threads).Reflected := by
  refine ⟨⟨?_, ?_, ?_, ?_, ?_⟩, fun _ => trivial⟩ <;> rw [past_initial]
  · exact AtomicLatencyHistogram.tallies_initial.buckets
  · exact AtomicLatencyHistogram.tallies_initial.count
  · exact AtomicLatencyHistogram.tallies_initial.totalNs
  · exact AtomicLatencyHistogram.tallies_initial.minNs
  · exact AtomicLatencyHistogram.tallies_initial.maxNs

theorem past_antitone (system : HistogramSystem threads) {early late : Stage}
    (before : early.level ≤ late.level) : system.past late ≤ system.past early :=
  Finset.sum_le_sum (fun id _ => (system.recorders id).past_antitone before)

/-- The values past a stage when one thread has moved. -/
theorem past_update (system : HistogramSystem threads) (id : Fin threads) {recorder : Recorder}
    {stage : Stage} {added : Multiset UInt64}
    (moved : recorder.past stage = (system.recorders id).past stage + added) :
    ∑ other, (Function.update system.recorders id recorder other).past stage =
      system.past stage + added := by
  have sum := Waiting.sum_update (Recorder.past stage) system.recorders id recorder
  rw [moved, add_comm (Recorder.past stage (system.recorders id)), ← add_assoc] at sum
  exact add_right_cancel sum

theorem agrees_update {recorders : Fin threads → Recorder} {id : Fin threads} {recorder : Recorder}
    {histogram : AtomicLatencyHistogram} (moved : recorder.point.Agrees histogram)
    (others : ∀ other, (recorders other).point.Agrees histogram) (other : Fin threads) :
    (Function.update recorders id recorder other).point.Agrees histogram :=
  (Function.forall_update_iff recorders (fun _ recorder => recorder.point.Agrees histogram)).mpr
    ⟨moved, fun other _ => others other⟩ other

/-- What a step amounts to: a value passes a stage, or the histogram and all stages stay as
they are. -/
inductive Advances (system next : HistogramSystem threads) : Prop
  | passes (stage : Stage) (value : UInt64)
      (histogram : next.histogram = stage.pass system.histogram value)
      (entered : ∀ other, next.past other =
        system.past other + if other = stage then {value} else 0)
  | waits (histogram : next.histogram = system.histogram)
      (same : ∀ stage, next.past stage = system.past stage)

theorem Reflected.advances (reflected : system.Reflected) (event : HistogramEvent threads) :
    system.Advances (system.step ceil event) ∧
      ∀ id, ((system.step ceil event).recorders id).point.Agrees
        (system.step ceil event).histogram := by
  cases event with
  | snapshot => exact ⟨.waits rfl (fun _ => rfl), reflected.agrees⟩
  | record id value spurious =>
      have advances := Recorder.advances (reflected.agrees id) value spurious
      simp only [HistogramSystem.step]
      generalize (system.recorders id).step system.histogram value spurious = result at advances ⊢
      cases advances with
      | passes stage value entered agrees =>
          exact ⟨.passes stage value rfl (fun other => system.past_update id (entered other)),
            agrees_update agrees (fun other => (reflected.agrees other).mono
              (stage.minNs_pass_le _ _) (stage.le_maxNs_pass _ _))⟩
      | waits same agrees =>
          refine ⟨.waits rfl (fun other => ?_), agrees_update agrees reflected.agrees⟩
          have unmoved := (same other).trans (add_zero _).symm
          exact (system.past_update id unmoved).trans (add_zero _)

theorem Reflected.step (reflected : system.Reflected) (event : HistogramEvent threads) :
    (system.step ceil event).Reflected := by
  obtain ⟨advances, agrees⟩ := reflected.advances event
  refine ⟨?_, agrees⟩
  cases advances with
  | passes stage value histogram entered =>
      rw [histogram]
      exact reflected.histogram.pass entered
  | waits histogram same =>
      rw [histogram, funext same]
      exact reflected.histogram

theorem Reflected.run {start : HistogramSystem threads} (reflected : start.Reflected)
    (events : List (HistogramEvent threads)) :
    (Schedule.run (HistogramSystem.step ceil) start events).Reflected :=
  Schedule.run_invariant (fun _ event known => known.step event) reflected events

/-- Values never leave a stage. -/
theorem Reflected.past_mono (reflected : system.Reflected)
    (ceil : Percentile → UInt64 → UInt64) (event : HistogramEvent threads) (stage : Stage) :
    system.past stage ≤ (system.step ceil event).past stage := by
  cases (reflected.advances event).1 with
  | passes _ _ _ entered => exact entered stage ▸ Multiset.le_add_right _ _
  | waits _ same => exact le_of_eq (same stage).symm

/-! ### Quiet states -/

theorem Quiet.past_eq (quiet : system.Quiet) (stage : Stage) :
    system.past stage = system.recorded :=
  Finset.sum_congr rfl (fun id _ => by
    rw [Recorder.past, Recorder.past, RecordPoint.past_of_outside (quiet id),
      RecordPoint.past_of_outside (quiet id)])

/-- While no call is in progress, the histogram is that of all recorded values. -/
theorem Reflected.tallies (reflected : system.Reflected) (quiet : system.Quiet) :
    system.histogram.Tallies system.recorded := by
  obtain ⟨buckets, count, totalNs, minNs, maxNs⟩ := reflected.histogram
  rw [quiet.past_eq] at buckets count totalNs minNs maxNs
  exact ⟨buckets, count, totalNs, minNs, maxNs⟩

end HistogramSystem

end Lob
