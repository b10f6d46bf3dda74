import Mathlib.Data.Nat.Bitwise
import Mathlib.Data.List.Basic

/-!
# Little-endian fields of a byte buffer

A buffer is a list of bytes. `put` stores the low bytes of a number at an offset, least
significant byte first, and `get` reads such a field back. A field is read as it was
stored, and stores at other offsets do not touch it.
-/

namespace LittleEndian

/-- Store the `width` low bytes of `value` from `offset` on. -/
def put (bytes : List UInt8) (offset : Nat) : Nat → Nat → List UInt8
  | 0, _ => bytes
  | width + 1, value =>
      (put bytes offset width value).set (offset + width) (UInt8.ofNat (value >>> (8 * width)))

/-- Read the field of `width` bytes at `offset`; bytes beyond the buffer count as zero. -/
def get (bytes : List UInt8) (offset : Nat) : Nat → Nat
  | 0 => 0
  | width + 1 => get bytes offset width ||| (bytes.getD (offset + width) 0).toNat <<< (8 * width)

variable {bytes bytes' : List UInt8} {offset width value : Nat}

@[simp] theorem length_put (bytes : List UInt8) (offset width value : Nat) :
    (put bytes offset width value).length = bytes.length := by
  induction width with
  | zero => rfl
  | succ width ih => rw [put, List.length_set, ih]

theorem getD_set (bytes : List UInt8) (i j : Nat) (byte : UInt8) :
    (bytes.set i byte).getD j 0 = if i = j ∧ j < bytes.length then byte else bytes.getD j 0 := by
  rw [List.getD_eq_getElem?_getD, List.getD_eq_getElem?_getD, List.getElem?_set]
  by_cases same : i = j
  · by_cases inside : j < bytes.length
    · simp [same, inside]
    · simp [same, inside]
  · simp [same]

/-- What a byte of the buffer is after a store. -/
theorem getD_put (bytes : List UInt8) (offset width value j : Nat) :
    (put bytes offset width value).getD j 0 =
      if offset ≤ j ∧ j < offset + width ∧ j < bytes.length then
        UInt8.ofNat (value >>> (8 * (j - offset)))
      else bytes.getD j 0 := by
  induction width with
  | zero => rw [put, if_neg (by omega)]
  | succ width ih =>
      rw [put, getD_set, length_put, ih]
      by_cases last : offset + width = j
      · obtain rfl := last
        by_cases inside : offset + width < bytes.length
        · rw [if_pos ⟨rfl, inside⟩, if_pos (by omega), Nat.add_sub_cancel_left]
        · rw [if_neg (by omega), if_neg (by omega), if_neg (by omega)]
      · by_cases within : offset ≤ j ∧ j < offset + width ∧ j < bytes.length
        · rw [if_neg (by omega), if_pos within, if_pos (by omega)]
        · rw [if_neg (by omega), if_neg within, if_neg (by omega)]

theorem get_lt (bytes : List UInt8) (offset width : Nat) :
    get bytes offset width < 2 ^ (8 * width) := by
  induction width with
  | zero => exact Nat.one_pos
  | succ width ih =>
      rw [get]
      apply Nat.or_lt_two_pow
      · exact Nat.lt_of_lt_of_le ih (Nat.pow_le_pow_right (by omega) (by omega))
      · rw [Nat.shiftLeft_eq, Nat.mul_succ, Nat.pow_add, Nat.mul_comm (2 ^ (8 * width))]
        exact Nat.mul_lt_mul_of_pos_right (UInt8.toNat_lt _) (Nat.two_pow_pos _)

/-- The bytes of a field are disjoint, so the field is their weighted sum. -/
theorem get_succ (bytes : List UInt8) (offset width : Nat) :
    get bytes offset (width + 1) =
      get bytes offset width + 2 ^ (8 * width) * (bytes.getD (offset + width) 0).toNat := by
  rw [get, Nat.or_comm, Nat.shiftLeft_eq, Nat.mul_comm,
    ← Nat.two_pow_add_eq_or_of_lt (get_lt bytes offset width)]
  exact Nat.add_comm _ _

/-- The bits of a field are those of its bytes. -/
theorem testBit_get (bytes : List UInt8) (offset width i : Nat) :
    (get bytes offset width).testBit i =
      (decide (i < 8 * width) && (bytes.getD (offset + i / 8) 0).toNat.testBit (i % 8)) := by
  induction width with
  | zero => simp [get]
  | succ width ih =>
      rw [get, Nat.testBit_or, Nat.testBit_shiftLeft, ih]
      by_cases before : i < 8 * width
      · have notLast : ¬8 * width ≤ i := by omega
        have inside : i < 8 * (width + 1) := by omega
        simp [before, notLast, inside]
      · have last : 8 * width ≤ i := by omega
        by_cases inside : i < 8 * (width + 1)
        · have quotient : i / 8 = width := by omega
          have remainder : i - 8 * width = i % 8 := by omega
          simp [before, last, inside, quotient, remainder]
        · have high : (bytes.getD (offset + width) 0).toNat.testBit (i - 8 * width) = false :=
            Nat.testBit_lt_two_pow (Nat.lt_of_lt_of_le (UInt8.toNat_lt _)
              (Nat.pow_le_pow_right (by omega) (show 8 ≤ i - 8 * width by omega)))
          rw [high]
          simp [before, inside]

/-- The low bytes of a field are a narrower field. -/
theorem get_mod {narrow : Nat} (narrower : narrow ≤ width) :
    get bytes offset width % 2 ^ (8 * narrow) = get bytes offset narrow := by
  apply Nat.eq_of_testBit_eq
  intro i
  rw [Nat.testBit_mod_two_pow, testBit_get, testBit_get]
  by_cases low : i < 8 * narrow
  · have inside : i < 8 * width := by omega
    simp [low, inside]
  · simp [low]

/-- A field depends on its own bytes only. -/
theorem get_congr (same : ∀ i < width, bytes.getD (offset + i) 0 = bytes'.getD (offset + i) 0) :
    get bytes offset width = get bytes' offset width := by
  induction width with
  | zero => rfl
  | succ width ih =>
      rw [get, get, ih (fun i less => same i (by omega)), same width (by omega)]

/-- The field whose bytes are those of a number. -/
theorem get_of_bytes
    (stored : ∀ i < width, bytes.getD (offset + i) 0 = UInt8.ofNat (value >>> (8 * i))) :
    get bytes offset width = value % 2 ^ (8 * width) := by
  induction width with
  | zero => rw [get, Nat.mul_zero, Nat.pow_zero, Nat.mod_one]
  | succ width ih =>
      rw [get_succ, ih (fun i less => stored i (by omega)), stored width (by omega),
        UInt8.toNat_ofNat', Nat.shiftRight_eq_div_pow, Nat.mul_succ, Nat.pow_add, Nat.mod_mul]

theorem get_put (inside : offset + width ≤ bytes.length) :
    get (put bytes offset width value) offset width = value % 2 ^ (8 * width) := by
  apply get_of_bytes
  intro i less
  rw [getD_put, if_pos (by omega), Nat.add_sub_cancel_left]

theorem get_put_of_disjoint {offset' width' : Nat}
    (disjoint : offset + width ≤ offset' ∨ offset' + width' ≤ offset) :
    get (put bytes offset' width' value) offset width = get bytes offset width := by
  apply get_congr
  intro i less
  rw [getD_put, if_neg (by omega)]

theorem get_set_of_outside {i : Nat} {byte : UInt8} (outside : i < offset ∨ offset + width ≤ i) :
    get (bytes.set i byte) offset width = get bytes offset width := by
  apply get_congr
  intro j less
  rw [getD_set, if_neg (by omega)]

theorem getD_put_of_outside {j : Nat} (outside : j < offset ∨ offset + width ≤ j) :
    (put bytes offset width value).getD j 0 = bytes.getD j 0 := by
  rw [getD_put, if_neg (by omega)]

theorem take_put {k : Nat} (before : k ≤ offset) :
    (put bytes offset width value).take k = bytes.take k := by
  induction width with
  | zero => rfl
  | succ width ih => rw [put, List.take_set_of_le (by omega), ih]

end LittleEndian
