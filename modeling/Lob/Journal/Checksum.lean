import Lob.Journal.Record
import Lob.Library.ShiftRegister

/-!
# Corruption of journal records

The bitwise loop of `crc32` is a reflected shift register with polynomial `0xEDB88320`.
The stored checksum is the complement of that register in little-endian order, so a
record has a matching checksum exactly when the register that all 48 bytes leave is one
fixed residue; the checksum bytes need no separate treatment.

A change within four consecutive bytes changes that register, wherever the four bytes
lie, and `validateRecord` rejects the record.
-/

namespace Lob

namespace Journal

variable {bytes : List UInt8}

open ShiftRegister

/-- The polynomial of `crc32`, reflected. -/
def kPolynomial : BitVec 32 := 0xEDB88320

/-- The bytes of a buffer as the symbols that the register absorbs. -/
def symbols (bytes : List UInt8) : List (BitVec 8) := bytes.map UInt8.toBitVec

/-- The register that `crc32` computes and complements. -/
def register (bytes : List UInt8) : BitVec 32 :=
  (symbols bytes).foldl (absorb kPolynomial) (BitVec.allOnes 32)

/-- The register that a record with a matching checksum leaves. -/
def kResidue : BitVec 32 := shifts kPolynomial 32 (BitVec.allOnes 32)

/-! ### The register of the loop -/

theorem toBitVec_crcBit (crc : UInt32) :
    (crcBit crc).toBitVec = shift kPolynomial crc.toBitVec := by
  have lowBit : crc.toBitVec &&& (1 : UInt32).toBitVec =
      (BitVec.ofBool (crc.toBitVec.getLsbD 0)).setWidth 32 :=
    BitVec.and_one_eq_setWidth_ofBool_getLsbD
  simp only [crcBit, shift, UInt32.toBitVec_xor, UInt32.toBitVec_shiftRight, UInt32.toBitVec_and,
    UInt32.toBitVec_sub, lowBit]
  -- The mask is all zeros or all ones.
  cases crc.toBitVec.getLsbD 0
  · simp
  · simp [kPolynomial]

theorem toBitVec_repeat_crcBit (count : Nat) (crc : UInt32) :
    (Nat.repeat crcBit count crc).toBitVec = shifts kPolynomial count crc.toBitVec := by
  induction count with
  | zero => rfl
  | succ count ih =>
      rw [Nat.repeat, toBitVec_crcBit, ih]
      exact (Function.iterate_succ_apply' _ _ _).symm

theorem toBitVec_crcByte (crc : UInt32) (byte : UInt8) :
    (crcByte crc byte).toBitVec = absorb kPolynomial crc.toBitVec byte.toBitVec := by
  rw [crcByte, toBitVec_repeat_crcBit, UInt32.toBitVec_xor, UInt8.toBitVec_toUInt32, absorb]

theorem toBitVec_foldl_crcByte (bytes : List UInt8) (crc : UInt32) :
    (bytes.foldl crcByte crc).toBitVec =
      (symbols bytes).foldl (absorb kPolynomial) crc.toBitVec := by
  induction bytes generalizing crc with
  | nil => rfl
  | cons byte bytes ih =>
      rw [List.foldl_cons, ih, toBitVec_crcByte, symbols, symbols, List.map_cons, List.foldl_cons]

theorem toBitVec_crc32 (bytes : List UInt8) : (crc32 bytes).toBitVec = ~~~register bytes := by
  rw [crc32, UInt32.toBitVec_not, toBitVec_foldl_crcByte, register]
  rfl

/-! ### The stored checksum -/

theorem symbols_append (front back : List UInt8) :
    symbols (front ++ back) = symbols front ++ symbols back :=
  List.map_append

theorem getD_symbols (bytes : List UInt8) (i : Nat) :
    (symbols bytes).getD i 0 = (bytes.getD i 0).toBitVec := by
  rw [symbols, List.getD_eq_getElem?_getD, List.getElem?_map, List.getD_eq_getElem?_getD]
  cases bytes[i]? <;> rfl

/-- A field is the word of its four bytes. -/
theorem toBitVec_getU32 {offset : Nat} :
    (getU32 bytes offset).toBitVec = word 32 (symbols ((bytes.drop offset).take 4)) := by
  apply BitVec.eq_of_getLsbD_eq
  intro i less
  have inside : i / 8 < 4 := by omega
  have byte : ((bytes.drop offset).take 4).getD (i / 8) 0 = bytes.getD (offset + i / 8) 0 := by
    simp [inside]
  rw [getLsbD_word (by omega), getD_symbols, byte, getU32, UInt32.toBitVec_ofNat',
    BitVec.getLsbD_ofNat, LittleEndian.testBit_get, BitVec.getLsbD, UInt8.toNat_toBitVec]
  simp [less]

/-- The checksum of a record matches exactly when its bytes leave the residue. -/
theorem checksum_iff_register (size : bytes.length = kRecordSize) :
    getU32 bytes kChecksumOffset = crc32 (bytes.take kChecksumOffset) ↔
      register bytes = kResidue := by
  have four : (bytes.drop kChecksumOffset).length = 4 := by
    rw [List.length_drop, size]
    rfl
  have whole : register bytes = shifts kPolynomial 32
      (register (bytes.take kChecksumOffset) ^^^
        word 32 (symbols (bytes.drop kChecksumOffset))) := by
    have fits : 8 * (symbols (bytes.drop kChecksumOffset)).length = 32 := by
      rw [symbols, List.length_map, four]
    have split : symbols bytes =
        symbols (bytes.take kChecksumOffset) ++ symbols (bytes.drop kChecksumOffset) := by
      rw [← symbols_append, List.take_append_drop]
    rw [register, split, List.foldl_append, ← register,
      foldl_absorb_eq_shifts (by omega) (by omega), fits]
  have complement : ∀ a b : BitVec 32, b = ~~~a ↔ a ^^^ b = BitVec.allOnes 32 := by
    intro a b
    have self : a ^^^ ~~~a = BitVec.allOnes 32 := by
      rw [← BitVec.xor_allOnes, ← BitVec.xor_assoc, BitVec.xor_self, BitVec.zero_xor]
    rw [← self, BitVec.xor_right_inj]
  rw [← UInt32.toBitVec_inj, toBitVec_getU32, toBitVec_crc32, List.take_of_length_le (by omega),
    whole, kResidue, (shifts_injective (by decide) 32).eq_iff, complement]

theorem checksum_of_validateRecord {ordinal : UInt64}
    (valid : validateRecord bytes ordinal = none) :
    getU32 bytes kChecksumOffset = crc32 (bytes.take kChecksumOffset) := by
  by_contra mismatch
  simp only [validateRecord] at valid
  rw [if_pos mismatch] at valid
  split_ifs at valid

/-! ### Bursts -/

/-- Two buffers that agree outside four consecutive bytes, cut around these bytes. -/
theorem cut_around {bytes altered : List UInt8} {start : Nat}
    (sameLength : altered.length = bytes.length)
    (confined : ∀ i, i < start ∨ start + 4 ≤ i → altered.getD i 0 = bytes.getD i 0) :
    altered.take start = bytes.take start ∧
      altered.drop (start + 4) = bytes.drop (start + 4) := by
  constructor
  · apply List.ext_getElem (by simp [sameLength])
    intro i inside inside'
    have same := confined i (by simp at inside; omega)
    simp only [List.length_take, lt_inf_iff] at inside inside'
    simpa [inside, inside'] using same
  · apply List.ext_getElem (by simp [sameLength])
    intro i inside inside'
    have same := confined (start + 4 + i) (by omega)
    simp only [List.length_drop] at inside inside'
    have within : start + 4 + i < altered.length := by omega
    have within' : start + 4 + i < bytes.length := by omega
    simpa [within, within'] using same

theorem register_ne_of_burst {bytes altered : List UInt8} {start : Nat}
    (sameLength : altered.length = bytes.length)
    (confined : ∀ i, i < start ∨ start + 4 ≤ i → altered.getD i 0 = bytes.getD i 0)
    (changed : altered ≠ bytes) : register altered ≠ register bytes := by
  obtain ⟨before, after⟩ := cut_around sameLength confined
  have cut : ∀ buffer : List UInt8, buffer =
      buffer.take start ++ (buffer.drop start).take 4 ++ buffer.drop (start + 4) := by
    intro buffer
    rw [List.append_assoc, ← List.drop_drop, List.take_append_drop, List.take_append_drop]
  have windows : (altered.drop start).take 4 ≠ (bytes.drop start).take 4 := by
    intro same
    apply changed
    rw [cut altered, cut bytes, before, same, after]
  have injective : Function.Injective symbols :=
    List.map_injective_iff.mpr (fun _ _ => UInt8.toBitVec_inj.mp)
  rw [cut altered, cut bytes, before, after, register, register]
  simp only [symbols_append]
  apply foldl_absorb_ne_of_burst (by decide) (by omega)
  · simp only [symbols, List.length_map, List.length_take]
    omega
  · simp [symbols, sameLength]
  · exact injective.ne windows

/-- `validateRecord` rejects every record that differs from a written one in some of four
consecutive bytes and nowhere else. -/
theorem validateRecord_of_burst (recordType : UInt8) (ordinal : UInt64) (order : Order)
    (altered : List UInt8) (start : Nat) (size : altered.length = kRecordSize)
    (confined : ∀ i, i < start ∨ start + 4 ≤ i →
      altered.getD i 0 = (recordBytes recordType ordinal order).getD i 0)
    (changed : altered ≠ recordBytes recordType ordinal order) :
    validateRecord altered ordinal ≠ none := by
  intro valid
  have written := (checksum_iff_register (length_recordBytes recordType ordinal order)).mp
    (getU32_checksum recordType ordinal order)
  have accepted := (checksum_iff_register size).mp (checksum_of_validateRecord valid)
  exact register_ne_of_burst (size.trans (length_recordBytes recordType ordinal order).symm)
    confined changed (accepted.trans written.symm)

/-- A burst over the last reserved byte and the first byte of the checksum. -/
theorem validateRecord_of_straddling_burst :
    validateRecord (((recordBytes kCancelRecord 1 { id := 7 }).set 43 1).set 44 0) 1 ≠ none :=
  validateRecord_of_burst kCancelRecord 1 { id := 7 } _ 42 (by simp [length_recordBytes])
    (fun i outside => by
      rw [LittleEndian.getD_set, if_neg (by omega), LittleEndian.getD_set, if_neg (by omega)])
    (by decide +kernel)

end Journal

end Lob
