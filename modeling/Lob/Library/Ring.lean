import Mathlib.Data.Nat.ModEq
import Mathlib.Data.Nat.Log
import Mathlib.Data.Vector.Basic

/-!
# Ring buffers

A buffer of fixed size holds the values of a window of consecutive counters; counter `n`
lives in slot `n % size`. As long as the window is no longer than the buffer, its slots are
distinct: writing the slot behind the window does not touch it, and the window can be
extended at the back and shortened at the front.

Sizes are often powers of two, tested by `n &&& (n - 1) = 0` and reduced by a mask; the
last section turns these idioms into the arithmetic of the first.
-/

namespace Ring

variable {α : Type} {size : Nat} [NeZero size]

/-- The slot of a counter. -/
def slot (size : Nat) [NeZero size] (counter : Nat) : Fin size :=
  ⟨counter % size, Nat.mod_lt _ (Nat.pos_of_neZero size)⟩

/-- The values of the counters from `first` on, as many as `count` says. -/
def contents (buffer : Vector α size) (first count : Nat) : List α :=
  (List.range count).map (fun offset => buffer.get (slot size (first + offset)))

@[simp] theorem length_contents (buffer : Vector α size) (first count : Nat) :
    (contents buffer first count).length = count := by
  simp [contents]

theorem slot_congr {counter counter' : Nat} (same : counter % size = counter' % size) :
    slot size counter = slot size counter' := Fin.ext same

theorem contents_congr {first first' : Nat} (same : first % size = first' % size)
    (buffer : Vector α size) (count : Nat) :
    contents buffer first count = contents buffer first' count := by
  refine List.map_congr_left (fun offset _ => ?_)
  rw [slot_congr (Nat.ModEq.add_right offset same)]

/-- The slot behind a window that leaves room is not one of the window's own. -/
theorem slot_ne {first count offset : Nat} (inside : offset < count) (room : count < size) :
    slot size (first + offset) ≠ slot size (first + count) := by
  intro same
  have congruent : offset ≡ count [MOD size] :=
    Nat.ModEq.add_left_cancel' first (congrArg Fin.val same)
  rw [Nat.ModEq, Nat.mod_eq_of_lt (inside.trans room), Nat.mod_eq_of_lt room] at congruent
  omega

theorem contents_succ_back (buffer : Vector α size) (first count : Nat) :
    contents buffer first (count + 1) =
      contents buffer first count ++ [buffer.get (slot size (first + count))] := by
  simp [contents, List.range_succ]

theorem contents_succ_front (buffer : Vector α size) (first count : Nat) :
    contents buffer first (count + 1) =
      buffer.get (slot size first) :: contents buffer (first + 1) count := by
  simp only [contents, List.range_succ_eq_map, List.map_cons, List.map_map, Nat.add_zero]
  congr 1
  refine List.map_congr_left (fun offset _ => ?_)
  simp only [Function.comp, Nat.succ_eq_add_one, Nat.add_assoc, Nat.add_comm 1]

omit [NeZero size] in
theorem get_set (buffer : Vector α size) (target other : Fin size) (value : α) :
    (buffer.set target value).get other = if target = other then value else buffer.get other := by
  change (buffer.set target value)[other.val] = _
  rw [Vector.getElem_set]
  simp only [Fin.ext_iff]
  rfl

/-- Writing behind the window leaves it alone. -/
theorem contents_set_back {first count : Nat} (room : count < size) (buffer : Vector α size)
    (value : α) :
    contents (buffer.set (slot size (first + count)) value) first count =
      contents buffer first count := by
  refine List.map_congr_left (fun offset member => ?_)
  rw [get_set, if_neg (slot_ne (List.mem_range.mp member) room).symm]

/-! ### Sizes that are powers of two -/

omit [NeZero size] in
theorem exists_two_pow_of_and_pred {n : Nat} (test : n &&& (n - 1) = 0) (positive : 0 < n) :
    ∃ exponent, n = 2 ^ exponent := by
  refine ⟨n.log2, ?_⟩
  have lower : 2 ^ n.log2 ≤ n := Nat.log2_self_le (Nat.ne_of_gt positive)
  have upper : n < 2 ^ (n.log2 + 1) := Nat.lt_log2_self
  -- above the power, `n` and `n - 1` would share their leading bit
  by_contra different
  have high := Nat.testBit_of_two_pow_le_and_two_pow_add_one_gt lower upper
  have high' : (n - 1).testBit n.log2 = true :=
    Nat.testBit_of_two_pow_le_and_two_pow_add_one_gt (by omega) (by omega)
  have shared : (n &&& (n - 1)).testBit n.log2 = true := by
    rw [Nat.testBit_and, high, high', Bool.and_true]
  rw [test, Nat.zero_testBit] at shared
  exact absurd shared Bool.false_ne_true

end Ring

/-- A 64-bit size that passes the usual test for powers of two. -/
structure PowerOfTwo where
  value : UInt64
  powerOfTwo : value &&& (value - 1) = 0
  positive : 0 < value

namespace PowerOfTwo

open Ring

theorem toNat_pos (size : PowerOfTwo) : 0 < size.value.toNat :=
  UInt64.lt_iff_toNat_lt.mp size.positive

instance (size : PowerOfTwo) : NeZero size.value.toNat :=
  ⟨Nat.ne_of_gt size.toNat_pos⟩

theorem toNat_mask (size : PowerOfTwo) :
    (size.value - 1).toNat = size.value.toNat - 1 :=
  UInt64.toNat_sub_of_le _ _ (UInt64.le_iff_toNat_le.mpr size.toNat_pos)

/-- The slot of a counter, computed with a mask. -/
def index (size : PowerOfTwo) (counter : UInt64) : Fin size.value.toNat :=
  ⟨(counter &&& (size.value - 1)).toNat, by
    have bound : counter.toNat &&& (size.value.toNat - 1) ≤ size.value.toNat - 1 :=
      Nat.and_le_right
    have positive := size.toNat_pos
    rw [UInt64.toNat_and, toNat_mask]
    omega⟩

theorem exists_two_pow (size : PowerOfTwo) :
    ∃ exponent, size.value.toNat = 2 ^ exponent ∧ exponent ≤ 64 := by
  have test := congrArg UInt64.toNat size.powerOfTwo
  rw [UInt64.toNat_and, toNat_mask] at test
  obtain ⟨exponent, same⟩ := exists_two_pow_of_and_pred test size.toNat_pos
  refine ⟨exponent, same, ?_⟩
  have bound := size.value.toNat_lt
  rw [same] at bound
  exact Nat.le_of_lt ((Nat.pow_lt_pow_iff_right (by decide)).mp bound)

/-- The mask computes the slot. -/
theorem index_eq_slot (size : PowerOfTwo) (counter : UInt64) :
    size.index counter = slot size.value.toNat counter.toNat := by
  obtain ⟨exponent, same, _⟩ := size.exists_two_pow
  refine Fin.ext ?_
  change (counter &&& (size.value - 1)).toNat = counter.toNat % size.value.toNat
  rw [UInt64.toNat_and, toNat_mask, same, Nat.and_two_pow_sub_one_eq_mod]

/-- A wrap of the counter is invisible in its slot. -/
theorem toNat_add_mod (size : PowerOfTwo) (counter count : UInt64) :
    (counter + count).toNat % size.value.toNat =
      (counter.toNat + count.toNat) % size.value.toNat := by
  obtain ⟨exponent, same, bound⟩ := size.exists_two_pow
  rw [UInt64.toNat_add, same]
  exact Nat.mod_mod_of_dvd _ (Nat.pow_dvd_pow 2 bound)

theorem index_add (size : PowerOfTwo) (counter count : UInt64) :
    size.index (counter + count) =
      slot size.value.toNat (counter.toNat + count.toNat) := by
  rw [index_eq_slot]
  exact slot_congr (size.toNat_add_mod counter count)

end PowerOfTwo
