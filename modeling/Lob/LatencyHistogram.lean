import Lob.Library.OrderStatistics
import Lob.Library.Ring
import Mathlib.Data.Nat.Size

/-!
# The latency histogram

`AtomicLatencyHistogram` with one thread at a time. Bucket `i` counts the values above
`2^(i-1)` and up to `2^i`; bucket 0 takes 0 and 1, and the last one everything above `2^62`.
`percentileUpperBound` adds up the buckets until they reach a rank, and so stops in the
bucket of the value with this rank.

The floating-point step that turns a percentile and a count into a rank is a parameter, and
so the results hold for any rank it may yield. In place of `mean_ns`, a quotient of doubles,
a snapshot keeps the total that it is computed from.
-/

namespace Lob

/-! ### Buckets -/

/-- `AtomicLatencyHistogram::kBucketCount`. -/
abbrev kBucketCount : Nat := 64

/-- `std::numeric_limits<uint64_t>::max()`. -/
def uint64Max : UInt64 := 0xFFFFFFFFFFFFFFFF

theorem le_uint64Max (value : UInt64) : value ≤ uint64Max := by
  have bound := value.toNat_lt
  have top : uint64Max.toNat = 2 ^ 64 - 1 := rfl
  rw [UInt64.le_iff_toNat_le, top]
  omega

/-- `std::bit_width`. -/
def bitWidth (value : UInt64) : Nat := value.toNat.size

def bucketFor (value : UInt64) : Fin kBucketCount :=
  if value ≤ 1 then 0
  else
    let width := bitWidth (value - 1)
    if wide : width ≥ kBucketCount then ⟨kBucketCount - 1, by decide⟩
    else ⟨width, Nat.lt_of_not_ge wide⟩

def bucketUpperBound (bucket : Nat) : UInt64 :=
  if bucket ≥ 63 then uint64Max else 1 <<< UInt64.ofNat bucket

theorem toNat_bucketUpperBound {bucket : Nat} (below : bucket < 63) :
    (bucketUpperBound bucket).toNat = 2 ^ bucket := by
  have exact : (UInt64.ofNat bucket).toNat = bucket :=
    UInt64.toNat_ofNat_of_lt' (show bucket < 2 ^ 64 by omega)
  have small : 2 ^ bucket < 2 ^ 64 := Nat.pow_lt_pow_right (by decide) (by omega)
  rw [bucketUpperBound, if_neg (by omega), UInt64.toNat_shiftLeft, exact,
    Nat.mod_eq_of_lt (show bucket < 64 by omega), UInt64.toNat_one, Nat.one_shiftLeft,
    Nat.mod_eq_of_lt small]

/-- A bucket before the last one takes the values up to its bound. -/
theorem bucketFor_le_iff (value : UInt64) {bucket : Nat} (below : bucket < 63) :
    (bucketFor value).val ≤ bucket ↔ value.toNat ≤ 2 ^ bucket := by
  have positive : 1 ≤ 2 ^ bucket := Nat.one_le_two_pow
  have one : (1 : UInt64).toNat = 1 := rfl
  unfold bucketFor
  split
  · rename_i small
    rw [UInt64.le_iff_toNat_le, one] at small
    simp only [Fin.val_zero, Nat.zero_le, true_iff]
    omega
  · rename_i large
    rw [UInt64.le_iff_toNat_le, one] at large
    have predecessor : (value - 1).toNat = value.toNat - 1 := by
      rw [UInt64.toNat_sub_of_le _ _ (UInt64.le_iff_toNat_le.mpr (by rw [one]; omega)), one]
    have width : bitWidth (value - 1) ≤ bucket ↔ value.toNat ≤ 2 ^ bucket := by
      rw [bitWidth, predecessor, Nat.size_le]
      omega
    dsimp only
    split
    · rename_i wide
      have buckets : kBucketCount = 64 := rfl
      rw [← width]
      change 63 ≤ bucket ↔ _
      omega
    · exact width

theorem le_bucketUpperBound (value : UInt64) : value ≤ bucketUpperBound (bucketFor value) := by
  by_cases last : (bucketFor value).val ≥ 63
  · rw [bucketUpperBound, if_pos last]
    exact le_uint64Max value
  · rw [UInt64.le_iff_toNat_le, toNat_bucketUpperBound (by omega)]
    exact (bucketFor_le_iff value (by omega)).mp (Nat.le_refl _)

/-- The bound of a bucket before the last one is less than twice each of its values. -/
theorem bucketUpperBound_lt {value : UInt64} (positive : 1 ≤ value.toNat)
    (small : value.toNat ≤ 2 ^ 62) :
    (bucketUpperBound (bucketFor value)).toNat < 2 * value.toNat := by
  have below : (bucketFor value).val ≤ 62 := (bucketFor_le_iff value (by decide)).mpr small
  rw [toNat_bucketUpperBound (by omega)]
  cases bucket : (bucketFor value).val with
  | zero =>
      rw [Nat.pow_zero]
      omega
  | succ previous =>
      have above : ¬value.toNat ≤ 2 ^ previous := by
        rw [← bucketFor_le_iff value (by omega)]
        omega
      rw [Nat.pow_succ]
      omega

theorem bucketFor_mono {a b : UInt64} (le : a ≤ b) : bucketFor a ≤ bucketFor b := by
  by_cases last : (bucketFor b).val ≥ 63
  · have inside : (bucketFor a).val < 64 := (bucketFor a).isLt
    rw [Fin.le_def]
    omega
  · have small := (bucketFor_le_iff b (by omega)).mp (Nat.le_refl (bucketFor b).val)
    exact (bucketFor_le_iff a (by omega)).mpr
      (Nat.le_trans (UInt64.le_iff_toNat_le.mp le) small)

theorem bucketUpperBound_mono {i j : Nat} (le : i ≤ j) :
    bucketUpperBound i ≤ bucketUpperBound j := by
  by_cases last : j ≥ 63
  · rw [bucketUpperBound.eq_def j, if_pos last]
    exact le_uint64Max _
  · rw [UInt64.le_iff_toNat_le, toNat_bucketUpperBound (by omega),
      toNat_bucketUpperBound (by omega)]
    exact Nat.pow_le_pow_right (by decide) le

/-! ### The histogram -/

/-- `class AtomicLatencyHistogram`. -/
structure AtomicLatencyHistogram where
  buckets : Vector UInt64 kBucketCount := Vector.replicate _ 0
  count : UInt64 := 0
  totalNs : UInt64 := 0
  minNs : UInt64 := uint64Max
  maxNs : UInt64 := 0
  deriving DecidableEq, Repr

/-- The percentiles of a snapshot. -/
inductive Percentile where
  | p50
  | p95
  | p99
  | p999
  deriving DecidableEq, Repr

/-- `struct LatencySnapshot`, with `total_ns_` for the mean. -/
structure LatencySnapshot where
  count : UInt64 := 0
  minNs : UInt64 := 0
  totalNs : UInt64 := 0
  p50Ns : UInt64 := 0
  p95Ns : UInt64 := 0
  p99Ns : UInt64 := 0
  p999Ns : UInt64 := 0
  maxNs : UInt64 := 0
  deriving DecidableEq, Repr

namespace AtomicLatencyHistogram

/-- `buckets_[bucket].fetch_add(1)`. -/
def addBucket (histogram : AtomicLatencyHistogram) (bucket : Fin kBucketCount) :
    AtomicLatencyHistogram :=
  { histogram with
    buckets := histogram.buckets.set bucket (histogram.buckets.get bucket + 1) }

/-- `AtomicLatencyHistogram::record`, undisturbed. -/
def record (histogram : AtomicLatencyHistogram) (nanoseconds : UInt64) :
    AtomicLatencyHistogram :=
  let histogram := histogram.addBucket (bucketFor nanoseconds)
  { histogram with
    count := histogram.count + 1
    totalNs := histogram.totalNs + nanoseconds
    minNs := if nanoseconds < histogram.minNs then nanoseconds else histogram.minNs
    maxNs := if nanoseconds > histogram.maxNs then nanoseconds else histogram.maxNs }

def recordAll (histogram : AtomicLatencyHistogram) (values : List UInt64) :
    AtomicLatencyHistogram := values.foldl record histogram

/-- The loop of `percentileUpperBound` over the buckets ahead; `none` is its end without a
return. -/
def scan (histogram : AtomicLatencyHistogram) (rank : UInt64) :
    UInt64 → List (Fin kBucketCount) → Option UInt64
  | _, [] => none
  | cumulative, bucket :: ahead =>
      let cumulative := cumulative + histogram.buckets.get bucket
      if cumulative ≥ rank then some (bucketUpperBound bucket)
      else scan histogram rank cumulative ahead

/-- `AtomicLatencyHistogram::percentileUpperBound` from the rank that `std::ceil` yields. -/
def percentileUpperBound (histogram : AtomicLatencyHistogram) (ceiled : UInt64) : UInt64 :=
  let rank := if ceiled = 0 then 1 else ceiled
  (histogram.scan rank 0 (List.finRange kBucketCount)).getD histogram.maxNs

/-- `AtomicLatencyHistogram::snapshot`, undisturbed. -/
def snapshot (histogram : AtomicLatencyHistogram) (ceil : Percentile → UInt64 → UInt64) :
    LatencySnapshot :=
  if histogram.count = 0 then {}
  else
    { count := histogram.count
      minNs := histogram.minNs
      maxNs := histogram.maxNs
      totalNs := histogram.totalNs
      p50Ns := histogram.percentileUpperBound (ceil .p50 histogram.count)
      p95Ns := histogram.percentileUpperBound (ceil .p95 histogram.count)
      p99Ns := histogram.percentileUpperBound (ceil .p99 histogram.count)
      p999Ns := histogram.percentileUpperBound (ceil .p999 histogram.count) }

/-! ### What a histogram says about its values -/

/-- A least value of some values, or the largest number if there are none. -/
structure Lowest (low : UInt64) (values : Multiset UInt64) : Prop where
  le : ∀ value ∈ values, low ≤ value
  attained : low ∈ values ∨ low = uint64Max

theorem Lowest.mem {low value : UInt64} {values : Multiset UInt64} (lowest : Lowest low values)
    (member : value ∈ values) : low ∈ values := by
  rcases lowest.attained with attained | rfl
  · exact attained
  · rwa [UInt64.le_antisymm (lowest.le value member) (le_uint64Max value)]

/-- A greatest value of some values, or zero if there are none. -/
structure Highest (high : UInt64) (values : Multiset UInt64) : Prop where
  le : ∀ value ∈ values, value ≤ high
  attained : high ∈ values ∨ high = 0

theorem Highest.mem {high value : UInt64} {values : Multiset UInt64}
    (highest : Highest high values) (member : value ∈ values) : high ∈ values := by
  rcases highest.attained with attained | rfl
  · exact attained
  · rwa [UInt64.le_antisymm UInt64.zero_le (highest.le value member)]

/-- Every bucket counts the values that belong to it. -/
def BucketsCount (histogram : AtomicLatencyHistogram) (values : Multiset UInt64) : Prop :=
  ∀ bucket, histogram.buckets.get bucket =
    UInt64.ofNat (values.countP (fun value => bucketFor value = bucket))

/-- The histogram of some values. -/
structure Tallies (histogram : AtomicLatencyHistogram) (values : Multiset UInt64) : Prop where
  buckets : histogram.BucketsCount values
  count : histogram.count = UInt64.ofNat values.card
  totalNs : histogram.totalNs = UInt64.ofNat (values.map UInt64.toNat).sum
  minNs : Lowest histogram.minNs values
  maxNs : Highest histogram.maxNs values

theorem tallies_initial : ({} : AtomicLatencyHistogram).Tallies 0 where
  buckets bucket := Vector.getElem_replicate bucket.isLt
  count := rfl
  totalNs := rfl
  minNs := ⟨fun _ member => absurd member (Multiset.notMem_zero _), Or.inr rfl⟩
  maxNs := ⟨fun _ member => absurd member (Multiset.notMem_zero _), Or.inr rfl⟩

/-- A bucket after one more value went to some bucket. -/
theorem get_addBucket (histogram : AtomicLatencyHistogram) (target bucket : Fin kBucketCount) :
    (histogram.addBucket target).buckets.get bucket =
      if target = bucket then histogram.buckets.get bucket + 1
      else histogram.buckets.get bucket := by
  rw [addBucket, Ring.get_set]
  split
  · rename_i same
    rw [same]
  · rfl

theorem BucketsCount.addBucket {histogram : AtomicLatencyHistogram} {values : Multiset UInt64}
    (counts : histogram.BucketsCount values) (value : UInt64) :
    (histogram.addBucket (bucketFor value)).BucketsCount (value ::ₘ values) := by
  intro bucket
  rw [get_addBucket, Multiset.countP_cons, counts]
  split
  · rw [UInt64.ofNat_add]
    rfl
  · rfl

theorem Lowest.insert {low value : UInt64} {values : Multiset UInt64} (lowest : Lowest low values) :
    Lowest (if value < low then value else low) (value ::ₘ values) := by
  split
  · rename_i less
    refine ⟨fun other member => ?_, Or.inl (Multiset.mem_cons_self _ _)⟩
    rcases Multiset.mem_cons.mp member with rfl | old
    · exact UInt64.le_refl _
    · exact UInt64.le_trans (UInt64.le_of_lt less) (lowest.le other old)
  · rename_i notLess
    refine ⟨fun other member => ?_, lowest.attained.imp Multiset.mem_cons_of_mem id⟩
    rcases Multiset.mem_cons.mp member with rfl | old
    · exact UInt64.not_lt.mp notLess
    · exact lowest.le other old

theorem Highest.insert {high value : UInt64} {values : Multiset UInt64}
    (highest : Highest high values) :
    Highest (if value > high then value else high) (value ::ₘ values) := by
  split
  · rename_i greater
    refine ⟨fun other member => ?_, Or.inl (Multiset.mem_cons_self _ _)⟩
    rcases Multiset.mem_cons.mp member with rfl | old
    · exact UInt64.le_refl _
    · exact UInt64.le_trans (highest.le other old) (UInt64.le_of_lt greater)
  · rename_i notGreater
    refine ⟨fun other member => ?_, highest.attained.imp Multiset.mem_cons_of_mem id⟩
    rcases Multiset.mem_cons.mp member with rfl | old
    · exact UInt64.not_lt.mp notGreater
    · exact highest.le other old

theorem add_one_eq_ofNat_card {count : UInt64} {values : Multiset UInt64}
    (counted : count = UInt64.ofNat values.card) (value : UInt64) :
    count + 1 = UInt64.ofNat (value ::ₘ values).card := by
  rw [Multiset.card_cons, UInt64.ofNat_add, ← counted]
  rfl

theorem add_eq_ofNat_sum {total : UInt64} {values : Multiset UInt64}
    (totalled : total = UInt64.ofNat (values.map UInt64.toNat).sum) (value : UInt64) :
    total + value = UInt64.ofNat ((value ::ₘ values).map UInt64.toNat).sum := by
  rw [Multiset.map_cons, Multiset.sum_cons, Nat.add_comm, UInt64.ofNat_add, ← totalled,
    UInt64.ofNat_toNat]

theorem Tallies.record {histogram : AtomicLatencyHistogram} {values : Multiset UInt64}
    (tallies : histogram.Tallies values) (value : UInt64) :
    (histogram.record value).Tallies (value ::ₘ values) where
  buckets := tallies.buckets.addBucket value
  count := add_one_eq_ofNat_card tallies.count value
  totalNs := add_eq_ofNat_sum tallies.totalNs value
  minNs := tallies.minNs.insert
  maxNs := tallies.maxNs.insert

theorem tallies_recordAll (values : List UInt64) :
    (recordAll {} values).Tallies (values : Multiset UInt64) := by
  induction values using List.reverseRecOn with
  | nil => exact tallies_initial
  | append_singleton values value ih =>
      have next := ih.record value
      rw [recordAll, List.foldl_concat,
        Multiset.coe_eq_coe.mpr (List.perm_append_singleton value values)]
      exact next

/-! ### The scan -/

/-- What some buckets hold together. -/
def bucketSum (histogram : AtomicLatencyHistogram) (buckets : List (Fin kBucketCount)) : Nat :=
  (buckets.map (fun bucket => (histogram.buckets.get bucket).toNat)).sum

@[simp] theorem bucketSum_nil (histogram : AtomicLatencyHistogram) :
    histogram.bucketSum [] = 0 := rfl

@[simp] theorem bucketSum_cons (histogram : AtomicLatencyHistogram) (bucket : Fin kBucketCount)
    (buckets : List (Fin kBucketCount)) :
    histogram.bucketSum (bucket :: buckets) =
      (histogram.buckets.get bucket).toNat + histogram.bucketSum buckets := by
  simp [bucketSum]

/-- The scan stops in the first bucket that brings the sum up to the rank. -/
theorem scan_append {histogram : AtomicLatencyHistogram} {rank cumulative : UInt64}
    {before after : List (Fin kBucketCount)} {bucket : Fin kBucketCount}
    (below : cumulative.toNat + histogram.bucketSum before < rank.toNat)
    (reached : rank.toNat ≤ cumulative.toNat + histogram.bucketSum before +
      (histogram.buckets.get bucket).toNat)
    (fits : cumulative.toNat + histogram.bucketSum before +
      (histogram.buckets.get bucket).toNat < 2 ^ 64) :
    histogram.scan rank cumulative (before ++ bucket :: after) =
      some (bucketUpperBound bucket) := by
  induction before generalizing cumulative with
  | nil =>
      rw [bucketSum_nil, Nat.add_zero] at reached fits
      have sum : (cumulative + histogram.buckets.get bucket).toNat =
          cumulative.toNat + (histogram.buckets.get bucket).toNat := by
        rw [UInt64.toNat_add, Nat.mod_eq_of_lt fits]
      rw [List.nil_append, scan]
      exact if_pos (UInt64.le_iff_toNat_le.mpr (by rw [sum]; exact reached))
  | cons first before ih =>
      rw [bucketSum_cons] at below reached fits
      have sum : (cumulative + histogram.buckets.get first).toNat =
          cumulative.toNat + (histogram.buckets.get first).toNat := by
        rw [UInt64.toNat_add, Nat.mod_eq_of_lt (by omega)]
      rw [List.cons_append, scan, if_neg (by rw [ge_iff_le, UInt64.le_iff_toNat_le, sum]; omega)]
      exact ih (by rw [sum]; omega) (by rw [sum]; omega) (by rw [sum]; omega)

section Tallies

variable {histogram : AtomicLatencyHistogram} {values : Multiset UInt64}

theorem Tallies.toNat_count (tallies : histogram.Tallies values) (fits : values.card < 2 ^ 64) :
    histogram.count.toNat = values.card := by
  rw [tallies.count, UInt64.toNat_ofNat_of_lt' fits]

theorem BucketsCount.toNat_get (counts : histogram.BucketsCount values)
    (fits : values.card < 2 ^ 64) (bucket : Fin kBucketCount) :
    (histogram.buckets.get bucket).toNat =
      values.countP (fun value => bucketFor value = bucket) := by
  have few := Multiset.countP_le_card (fun value => bucketFor value = bucket) values
  rw [counts, UInt64.toNat_ofNat_of_lt' (Nat.lt_of_le_of_lt few fits)]

/-- Different buckets together hold the values that belong to one of them. -/
theorem BucketsCount.bucketSum_eq (counts : histogram.BucketsCount values)
    (fits : values.card < 2 ^ 64) {buckets : List (Fin kBucketCount)} (distinct : buckets.Nodup) :
    histogram.bucketSum buckets = values.countP (fun value => bucketFor value ∈ buckets) := by
  rw [← OrderStatistics.sum_countP_keys bucketFor values distinct, bucketSum]
  congr 1
  exact List.map_congr_left (fun bucket _ => counts.toNat_get fits bucket)

/-- All buckets together hold all values. -/
theorem BucketsCount.bucketSum_finRange (counts : histogram.BucketsCount values)
    (fits : values.card < 2 ^ 64) :
    histogram.bucketSum (List.finRange kBucketCount) = values.card := by
  rw [counts.bucketSum_eq fits (List.nodup_finRange _)]
  exact Multiset.countP_eq_card.mpr (fun value _ => List.mem_finRange _)

/-- The buckets before a given one in the order of the scan. -/
theorem exists_finRange_split (bucket : Fin kBucketCount) :
    ∃ before after, List.finRange kBucketCount = before ++ bucket :: after ∧
      (before ++ [bucket]).Nodup ∧ ∀ other, other ∈ before ↔ other < bucket := by
  obtain ⟨before, after, split⟩ := List.append_of_mem (List.mem_finRange bucket)
  have increasing := List.pairwise_lt_finRange kBucketCount
  have nodup := List.nodup_finRange kBucketCount
  rw [split] at increasing nodup
  obtain ⟨_, later, between⟩ := List.pairwise_append.mp increasing
  refine ⟨before, after, split, ?_, fun other => ⟨fun member => ?_, fun less => ?_⟩⟩
  · rw [List.append_cons] at nodup
    exact (List.nodup_append.mp nodup).1
  · exact between other member bucket List.mem_cons_self
  · have member := List.mem_finRange other
    rw [split, List.mem_append, List.mem_cons] at member
    rcases member with here | rfl | behind
    · exact here
    · exact absurd less (lt_irrefl _)
    · exact absurd less (lt_asymm ((List.pairwise_cons.mp later).1 other behind))

end Tallies

instance : Std.Total (fun a b : UInt64 => a ≤ b) := ⟨UInt64.le_total⟩

instance : IsTrans UInt64 (fun a b => a ≤ b) := ⟨fun _ _ _ => UInt64.le_trans⟩

/-- The scan finds the bucket of the value with the given rank. -/
theorem Tallies.scan_eq {histogram : AtomicLatencyHistogram} {values : List UInt64}
    (tallies : histogram.Tallies (values : Multiset UInt64)) (fits : values.length < 2 ^ 64)
    {rank value : UInt64} (positive : 1 ≤ rank.toNat)
    (ranked : OrderStatistics.smallest (· ≤ ·) rank.toNat values = some value) :
    histogram.scan rank 0 (List.finRange kBucketCount) =
      some (bucketUpperBound (bucketFor value)) := by
  obtain ⟨before, after, split, distinct, member⟩ := exists_finRange_split (bucketFor value)
  have zero : (0 : UInt64).toNat = 0 := rfl
  have sumBefore := tallies.buckets.bucketSum_eq fits (List.nodup_append.mp distinct).1
  have sumUpTo := tallies.buckets.bucketSum_eq fits distinct
  have together : histogram.bucketSum (before ++ [bucketFor value]) =
      histogram.bucketSum before + (histogram.buckets.get (bucketFor value)).toNat := by
    simp [bucketSum]
  -- fewer values than the rank lie in the buckets before that of `value`
  have below := OrderStatistics.smallest_iff_le_countP
    (p := fun other => decide (bucketFor other ∈ before))
    (fun a b le inBefore => by
      rw [decide_eq_true_eq, member] at inBefore ⊢
      exact lt_of_le_of_lt (bucketFor_mono le) inBefore) positive ranked
  have reached := OrderStatistics.smallest_iff_le_countP
    (p := fun other => decide (bucketFor other ∈ before ++ [bucketFor value]))
    (fun a b le upTo => by
      simp only [decide_eq_true_eq, List.mem_append, List.mem_singleton, member] at upTo ⊢
      exact (lt_or_eq_of_le ((bucketFor_mono le).trans (upTo.elim le_of_lt le_of_eq)))) positive
    ranked
  rw [Multiset.coe_countP] at sumBefore sumUpTo
  simp only [decide_eq_true_eq, member, lt_irrefl, false_iff, Nat.not_le] at below
  simp only [List.mem_append, List.mem_singleton, or_true, decide_true, true_iff] at reached
  have all := List.countP_le_length
    (p := fun other => decide (bucketFor other ∈ before ++ [bucketFor value])) (l := values)
  rw [split]
  apply scan_append
  · rw [zero, Nat.zero_add, sumBefore]
    simpa only [member] using below
  · rw [zero, Nat.zero_add, ← together, sumUpTo]
    simpa using reached
  · rw [zero, Nat.zero_add, ← together, sumUpTo]
    exact Nat.lt_of_le_of_lt all fits

/-! ### Percentiles -/

section Percentiles

variable {histogram : AtomicLatencyHistogram} {values : List UInt64}

/-- A rank up to the count is found in the bucket of the value with this rank. -/
theorem Tallies.exists_ranked (tallies : histogram.Tallies (values : Multiset UInt64))
    (fits : values.length < 2 ^ 64) {rank : UInt64} (positive : 1 ≤ rank)
    (atMost : rank ≤ histogram.count) :
    ∃ value ∈ values, OrderStatistics.smallest (· ≤ ·) rank.toNat values = some value ∧
      histogram.scan rank 0 (List.finRange kBucketCount) =
        some (bucketUpperBound (bucketFor value)) ∧
      histogram.percentileUpperBound rank = bucketUpperBound (bucketFor value) := by
  have positive' : 1 ≤ rank.toNat := UInt64.le_iff_toNat_le.mp positive
  have count : histogram.count.toNat = values.length := tallies.toNat_count fits
  have atMost' : rank.toNat ≤ values.length := count ▸ UInt64.le_iff_toNat_le.mp atMost
  obtain ⟨value, member, ranked⟩ := OrderStatistics.exists_smallest (· ≤ ·) positive' atMost'
  have found := tallies.scan_eq fits positive' ranked
  refine ⟨value, member, ranked, found, ?_⟩
  have nonzero : rank ≠ 0 := by
    rintro rfl
    exact absurd positive' (by decide)
  rw [percentileUpperBound, if_neg nonzero, found, Option.getD_some]

theorem Tallies.percentileUpperBound_mono (tallies : histogram.Tallies (values : Multiset UInt64))
    (fits : values.length < 2 ^ 64) {rank rank' : UInt64} (positive : 1 ≤ rank)
    (lower : rank ≤ rank') (atMost : rank' ≤ histogram.count) :
    histogram.percentileUpperBound rank ≤ histogram.percentileUpperBound rank' := by
  obtain ⟨value, _, ranked, _, bound⟩ :=
    tallies.exists_ranked fits positive (UInt64.le_trans lower atMost)
  obtain ⟨value', _, ranked', _, bound'⟩ :=
    tallies.exists_ranked fits (UInt64.le_trans positive lower) atMost
  rw [bound, bound']
  exact bucketUpperBound_mono (bucketFor_mono
    (OrderStatistics.smallest_mono (UInt64.le_iff_toNat_le.mp lower) ranked ranked'))

/-- The percentiles of a histogram are bounds on those of the values: for every rank up to the
count the scan returns from its loop, with a bound on the value of this rank that is less than
twice the value in the range of the buckets, and the bounds of a snapshot do not decrease if
its ranks do not. -/
structure BoundsPercentiles (histogram : AtomicLatencyHistogram) (values : List UInt64) :
    Prop where
  count : histogram.count.toNat = values.length
  ranked : ∀ rank, 1 ≤ rank → rank ≤ histogram.count → ∃ value bound,
    OrderStatistics.smallest (· ≤ ·) rank.toNat values = some value ∧
    histogram.scan rank 0 (List.finRange kBucketCount) = some bound ∧
    histogram.percentileUpperBound rank = bound ∧ value ≤ bound ∧
    (1 ≤ value.toNat → value.toNat ≤ 2 ^ 62 → bound.toNat < 2 * value.toNat)
  ordered : ∀ ceil : Percentile → UInt64 → UInt64,
    (∀ percentile, 1 ≤ ceil percentile histogram.count ∧
      ceil percentile histogram.count ≤ histogram.count) →
    (ceil .p50 histogram.count ≤ ceil .p95 histogram.count →
      (histogram.snapshot ceil).p50Ns ≤ (histogram.snapshot ceil).p95Ns) ∧
    (ceil .p95 histogram.count ≤ ceil .p99 histogram.count →
      (histogram.snapshot ceil).p95Ns ≤ (histogram.snapshot ceil).p99Ns) ∧
    (ceil .p99 histogram.count ≤ ceil .p999 histogram.count →
      (histogram.snapshot ceil).p99Ns ≤ (histogram.snapshot ceil).p999Ns)

theorem Tallies.boundsPercentiles (tallies : histogram.Tallies (values : Multiset UInt64))
    (fits : values.length < 2 ^ 64) : histogram.BoundsPercentiles values where
  count := tallies.toNat_count fits
  ranked := by
    intro rank positive atMost
    obtain ⟨value, _, ranked, found, bound⟩ := tallies.exists_ranked fits positive atMost
    exact ⟨value, _, ranked, found, bound, le_bucketUpperBound value, bucketUpperBound_lt⟩
  ordered := by
    intro ceil inRange
    have nonzero : histogram.count ≠ 0 := by
      intro zero
      have impossible := UInt64.le_trans (inRange .p50).1 (inRange .p50).2
      rw [zero] at impossible
      exact absurd impossible (by decide)
    have monotone {lower upper : Percentile}
        (ranks : ceil lower histogram.count ≤ ceil upper histogram.count) :
        histogram.percentileUpperBound (ceil lower histogram.count) ≤
          histogram.percentileUpperBound (ceil upper histogram.count) :=
      tallies.percentileUpperBound_mono fits (inRange lower).1 ranks (inRange upper).2
    simp only [snapshot, nonzero, if_false]
    exact ⟨monotone, monotone, monotone⟩

end Percentiles

/-- Recording fewer than `2^64` values, whatever they are, gives percentiles that bound theirs. -/
theorem percentiles_bound (values : List UInt64) (fits : values.length < 2 ^ 64) :
    (recordAll {} values).BoundsPercentiles values :=
  (tallies_recordAll values).boundsPercentiles fits

/-- A zero, an exact power of two and a value in the last bucket; the median is the power. -/
theorem percentiles_bound_three :
    (recordAll {} [0x4000000000000000, 0xFFFFFFFFFFFFFFFF, 0]).percentileUpperBound 2 =
        0x4000000000000000 ∧
      (recordAll {} [0x4000000000000000, 0xFFFFFFFFFFFFFFFF, 0]).BoundsPercentiles
        [0x4000000000000000, 0xFFFFFFFFFFFFFFFF, 0] :=
  ⟨by decide +kernel, percentiles_bound _ (by decide)⟩

end AtomicLatencyHistogram

end Lob
