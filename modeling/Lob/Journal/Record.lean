import Lob.Library.LittleEndian
import Lob.Order

/-!
# Journal records

The fixed-width record format of `journal.cpp`: 48 bytes, explicit little-endian fields
at fixed offsets, and a CRC32 over the first 44 bytes in the last four. A record buffer
is a list of bytes; the source's array is zero-initialised and every store is at a
constant offset inside it.

A record that was written for an ordinal passes the validation for that ordinal and for
no other, and its command is read back, except for the order's sequence, which the
format leaves out.
-/

namespace Lob

namespace Journal

def kRecordSize : Nat := 48
def kChecksumOffset : Nat := 44
def kRecordMagic : UInt32 := 0x324A424C
def kRecordVersion : UInt16 := 1
def kNewOrderRecord : UInt8 := 1
def kCancelRecord : UInt8 := 2

/-! ### Fields -/

def putU16 (bytes : List UInt8) (offset : Nat) (value : UInt16) : List UInt8 :=
  LittleEndian.put bytes offset 2 value.toNat

def putU32 (bytes : List UInt8) (offset : Nat) (value : UInt32) : List UInt8 :=
  LittleEndian.put bytes offset 4 value.toNat

def putU64 (bytes : List UInt8) (offset : Nat) (value : UInt64) : List UInt8 :=
  LittleEndian.put bytes offset 8 value.toNat

def getU16 (bytes : List UInt8) (offset : Nat) : UInt16 :=
  UInt16.ofNat (LittleEndian.get bytes offset 2)

def getU32 (bytes : List UInt8) (offset : Nat) : UInt32 :=
  UInt32.ofNat (LittleEndian.get bytes offset 4)

def getU64 (bytes : List UInt8) (offset : Nat) : UInt64 :=
  UInt64.ofNat (LittleEndian.get bytes offset 8)

/-! ### Checksum -/

/-- One pass of the inner loop of `crc32`. -/
def crcBit (crc : UInt32) : UInt32 :=
  let mask := 0 - (crc &&& 1)
  (crc >>> 1) ^^^ (0xEDB88320 &&& mask)

/-- One pass of the outer loop of `crc32`. -/
def crcByte (crc : UInt32) (byte : UInt8) : UInt32 :=
  Nat.repeat crcBit 8 (crc ^^^ byte.toUInt32)

def crc32 (data : List UInt8) : UInt32 := ~~~(data.foldl crcByte 0xFFFFFFFF)

/-! ### Writing and checking records -/

/-- The payload that `appendRecord` stores for a new order. -/
def putOrder (bytes : List UInt8) (order : Order) : List UInt8 :=
  let bytes := bytes.set 24 order.side.byte
  let bytes := bytes.set 25 order.type.byte
  let bytes := bytes.set 26 order.timeInForce.byte
  let bytes := bytes.set 27 order.flags.byte
  let bytes := putU64 bytes 28 order.price.toUInt64
  putU32 bytes 36 order.quantity

/-- The fields that `appendRecord` stores for every record. -/
def recordHeader (recordType : UInt8) (ordinal orderId : UInt64) : List UInt8 :=
  let bytes := List.replicate kRecordSize 0
  let bytes := putU32 bytes 0 kRecordMagic
  let bytes := putU16 bytes 4 kRecordVersion
  let bytes := bytes.set 6 recordType
  let bytes := putU64 bytes 8 ordinal
  putU64 bytes 16 orderId

/-- The record buffer of `appendRecord` before the checksum is stored. -/
def recordBody (recordType : UInt8) (ordinal : UInt64) (order : Order) : List UInt8 :=
  let bytes := recordHeader recordType ordinal order.id
  if recordType = kNewOrderRecord then putOrder bytes order else bytes

/-- The bytes that `appendRecord` writes. -/
def recordBytes (recordType : UInt8) (ordinal : UInt64) (order : Order) : List UInt8 :=
  let bytes := recordBody recordType ordinal order
  putU32 bytes kChecksumOffset (crc32 (bytes.take kChecksumOffset))

/-- `validateRecord`: the error text of the first check that fails. -/
def validateRecord (bytes : List UInt8) (expectedOrdinal : UInt64) : Option String :=
  if getU32 bytes 0 ≠ kRecordMagic then some "journal record magic mismatch"
  else if getU16 bytes 4 ≠ kRecordVersion then some "unsupported journal record version"
  else if bytes.getD 6 0 ≠ kNewOrderRecord ∧ bytes.getD 6 0 ≠ kCancelRecord then
    some "unknown journal record type"
  else if getU64 bytes 8 ≠ expectedOrdinal then some "journal ordinal gap or reordering"
  else if getU32 bytes kChecksumOffset ≠ crc32 (bytes.take kChecksumOffset) then
    some "journal CRC32 mismatch"
  else none

/-- `decodeOrder`. -/
def decodeOrder (bytes : List UInt8) : Order where
  id := getU64 bytes 16
  side := ⟨bytes.getD 24 0⟩
  type := ⟨bytes.getD 25 0⟩
  timeInForce := ⟨bytes.getD 26 0⟩
  flags := ⟨bytes.getD 27 0⟩
  price := (getU64 bytes 28).toInt64
  quantity := getU32 bytes 36
  sequence := 0

/-- The command that replay takes from a validated record. -/
def decodeCommand (bytes : List UInt8) : Command :=
  if bytes.getD 6 0 = kNewOrderRecord then .newOrder (decodeOrder bytes)
  else .cancel (getU64 bytes 16)

/-- The record that is appended for a command: `appendNewOrder` passes the order,
`appendCancel` a default order with the id. -/
def encodeCommand (ordinal : UInt64) : Command → List UInt8
  | .newOrder order => recordBytes kNewOrderRecord ordinal order
  | .cancel orderId => recordBytes kCancelRecord ordinal { id := orderId }

/-! ### Reading fields back -/

section Fields

variable {bytes : List UInt8} {offset i : Nat}

theorem getU16_putU16 {value : UInt16} (inside : offset + 2 ≤ bytes.length) :
    getU16 (putU16 bytes offset value) offset = value := by
  rw [getU16, putU16, LittleEndian.get_put inside,
    Nat.mod_eq_of_lt (by exact UInt16.toNat_lt value), UInt16.ofNat_toNat]

theorem getU32_putU32 {value : UInt32} (inside : offset + 4 ≤ bytes.length) :
    getU32 (putU32 bytes offset value) offset = value := by
  rw [getU32, putU32, LittleEndian.get_put inside,
    Nat.mod_eq_of_lt (by exact UInt32.toNat_lt value), UInt32.ofNat_toNat]

theorem getU64_putU64 {value : UInt64} (inside : offset + 8 ≤ bytes.length) :
    getU64 (putU64 bytes offset value) offset = value := by
  rw [getU64, putU64, LittleEndian.get_put inside,
    Nat.mod_eq_of_lt (by exact UInt64.toNat_lt value), UInt64.ofNat_toNat]

end Fields

@[simp] theorem length_recordHeader (recordType : UInt8) (ordinal orderId : UInt64) :
    (recordHeader recordType ordinal orderId).length = kRecordSize := by
  simp [recordHeader, putU16, putU32, putU64]

@[simp] theorem length_putOrder (bytes : List UInt8) (order : Order) :
    (putOrder bytes order).length = bytes.length := by
  simp [putOrder, putU64, putU32]

@[simp] theorem length_recordBody (recordType : UInt8) (ordinal : UInt64) (order : Order) :
    (recordBody recordType ordinal order).length = kRecordSize := by
  unfold recordBody
  split <;> simp

theorem length_recordBytes (recordType : UInt8) (ordinal : UInt64) (order : Order) :
    (recordBytes recordType ordinal order).length = kRecordSize := by
  simp [recordBytes, putU32]

/-- The payload and the checksum lie behind the header. -/
theorem getD_recordBytes_of_lt {recordType : UInt8} {ordinal : UInt64} {order : Order} {i : Nat}
    (inHeader : i < 24) :
    (recordBytes recordType ordinal order).getD i 0 =
      (recordHeader recordType ordinal order.id).getD i 0 := by
  simp only [recordBytes, putU32, kChecksumOffset]
  rw [LittleEndian.getD_put_of_outside (by omega), recordBody]
  split
  · simp only [putOrder, putU64, putU32]
    rw [LittleEndian.getD_put_of_outside (by omega), LittleEndian.getD_put_of_outside (by omega)]
    simp only [LittleEndian.getD_set]
    rw [if_neg (by omega), if_neg (by omega), if_neg (by omega), if_neg (by omega)]
  · rfl

theorem get_recordBytes_of_le {recordType : UInt8} {ordinal : UInt64} {order : Order}
    {offset width : Nat} (inHeader : offset + width ≤ 24) :
    LittleEndian.get (recordBytes recordType ordinal order) offset width =
      LittleEndian.get (recordHeader recordType ordinal order.id) offset width :=
  LittleEndian.get_congr (fun i less => getD_recordBytes_of_lt (by omega))

section Header

variable (recordType : UInt8) (ordinal : UInt64) (order : Order)

theorem getU32_magic : getU32 (recordBytes recordType ordinal order) 0 = kRecordMagic := by
  rw [getU32, get_recordBytes_of_le (by omega), ← getU32]
  simp only [recordHeader]
  rw [getU32, putU64, LittleEndian.get_put_of_disjoint (by omega), putU64,
    LittleEndian.get_put_of_disjoint (by omega), LittleEndian.get_set_of_outside (by omega),
    putU16, LittleEndian.get_put_of_disjoint (by omega), ← getU32]
  exact getU32_putU32 (by simp [kRecordSize])

theorem getU16_version : getU16 (recordBytes recordType ordinal order) 4 = kRecordVersion := by
  rw [getU16, get_recordBytes_of_le (by omega), ← getU16]
  simp only [recordHeader]
  rw [getU16, putU64, LittleEndian.get_put_of_disjoint (by omega), putU64,
    LittleEndian.get_put_of_disjoint (by omega), LittleEndian.get_set_of_outside (by omega),
    ← getU16]
  exact getU16_putU16 (by simp [kRecordSize, putU32])

theorem getD_type : (recordBytes recordType ordinal order).getD 6 0 = recordType := by
  rw [getD_recordBytes_of_lt (by omega)]
  simp only [recordHeader, putU64]
  rw [LittleEndian.getD_put_of_outside (by omega), LittleEndian.getD_put_of_outside (by omega),
    LittleEndian.getD_set, if_pos (by simp [putU16, putU32, kRecordSize])]

theorem getU64_ordinal : getU64 (recordBytes recordType ordinal order) 8 = ordinal := by
  rw [getU64, get_recordBytes_of_le (by omega), ← getU64]
  simp only [recordHeader]
  rw [getU64]
  nth_rewrite 1 [putU64]
  rw [LittleEndian.get_put_of_disjoint (by omega), ← getU64]
  exact getU64_putU64 (by simp [kRecordSize, putU32, putU16])

theorem getU64_id : getU64 (recordBytes recordType ordinal order) 16 = order.id := by
  rw [getU64, get_recordBytes_of_le (by omega), ← getU64]
  exact getU64_putU64 (by simp [kRecordSize, putU32, putU16, putU64])

theorem take_recordBytes :
    (recordBytes recordType ordinal order).take kChecksumOffset =
      (recordBody recordType ordinal order).take kChecksumOffset :=
  LittleEndian.take_put (Nat.le_refl _)

theorem getU32_checksum :
    getU32 (recordBytes recordType ordinal order) kChecksumOffset =
      crc32 ((recordBytes recordType ordinal order).take kChecksumOffset) := by
  rw [take_recordBytes]
  exact getU32_putU32 (by simp [kChecksumOffset, kRecordSize])

end Header

/-- A written record is valid for its own ordinal and for no other. -/
theorem validateRecord_recordBytes {recordType : UInt8}
    (known : recordType = kNewOrderRecord ∨ recordType = kCancelRecord)
    (ordinal expected : UInt64) (order : Order) :
    validateRecord (recordBytes recordType ordinal order) expected = none ↔ ordinal = expected := by
  have typed : ¬(recordType ≠ kNewOrderRecord ∧ recordType ≠ kCancelRecord) := by tauto
  simp only [validateRecord, getU32_magic, getU16_version, getD_type, getU64_ordinal,
    getU32_checksum, ne_eq, not_true_eq_false, if_false]
  rw [if_neg typed]
  by_cases same : ordinal = expected <;> simp [same]

/-! ### Reading commands back -/

section Payload

variable (ordinal : UInt64) (order : Order)

/-- A new-order record in front of its checksum. -/
theorem getD_recordBytes_payload {i : Nat} (inPayload : i < kChecksumOffset) :
    (recordBytes kNewOrderRecord ordinal order).getD i 0 =
      (putOrder (recordHeader kNewOrderRecord ordinal order.id) order).getD i 0 := by
  simp only [recordBytes, putU32, recordBody, if_true]
  rw [LittleEndian.getD_put_of_outside (by omega)]

theorem get_recordBytes_payload {offset width : Nat}
    (inPayload : offset + width ≤ kChecksumOffset) :
    LittleEndian.get (recordBytes kNewOrderRecord ordinal order) offset width =
      LittleEndian.get (putOrder (recordHeader kNewOrderRecord ordinal order.id) order)
        offset width :=
  LittleEndian.get_congr (fun i less => getD_recordBytes_payload ordinal order (by omega))

/-- The four bytes of the payload that are stored one by one. -/
theorem getD_putOrder {bytes : List UInt8} {i : Nat} (single : 24 ≤ i ∧ i < 28) :
    (putOrder bytes order).getD i 0 =
      ((((bytes.set 24 order.side.byte).set 25 order.type.byte).set 26
        order.timeInForce.byte).set 27 order.flags.byte).getD i 0 := by
  simp only [putOrder, putU64, putU32]
  rw [LittleEndian.getD_put_of_outside (by omega), LittleEndian.getD_put_of_outside (by omega)]

theorem decodeOrder_recordBytes :
    decodeOrder (recordBytes kNewOrderRecord ordinal order) = { order with sequence := 0 } := by
  have inside : (recordHeader kNewOrderRecord ordinal order.id).length = 48 :=
    length_recordHeader _ _ _
  have byteAt : ∀ i, 24 ≤ i ∧ i < 28 → (recordBytes kNewOrderRecord ordinal order).getD i 0 =
      (((((recordHeader kNewOrderRecord ordinal order.id).set 24 order.side.byte).set 25
        order.type.byte).set 26 order.timeInForce.byte).set 27 order.flags.byte).getD i 0 := by
    intro i single
    rw [getD_recordBytes_payload ordinal order (by simp only [kChecksumOffset]; omega),
      getD_putOrder order single]
  have price : getU64 (recordBytes kNewOrderRecord ordinal order) 28 = order.price.toUInt64 := by
    rw [getU64, get_recordBytes_payload ordinal order (by decide)]
    simp only [putOrder, putU32]
    rw [LittleEndian.get_put_of_disjoint (by omega), ← getU64]
    exact getU64_putU64 (by simp [inside])
  have quantity : getU32 (recordBytes kNewOrderRecord ordinal order) 36 = order.quantity := by
    rw [getU32, get_recordBytes_payload ordinal order (by decide), ← getU32]
    exact getU32_putU32 (by simp [inside, putU64])
  rw [decodeOrder, getU64_id, price, quantity, byteAt 24 (by omega), byteAt 25 (by omega),
    byteAt 26 (by omega), byteAt 27 (by omega)]
  simp only [LittleEndian.getD_set, List.length_set, inside]
  simp

end Payload

/-- What the journal keeps of a command: everything but the order's sequence. -/
def journaled : Command → Command
  | .newOrder order => .newOrder { order with sequence := 0 }
  | .cancel orderId => .cancel orderId

theorem decodeCommand_encodeCommand (ordinal : UInt64) (command : Command) :
    decodeCommand (encodeCommand ordinal command) = journaled command := by
  cases command with
  | newOrder order =>
      rw [encodeCommand, decodeCommand, getD_type, if_pos rfl, decodeOrder_recordBytes, journaled]
  | cancel orderId =>
      rw [encodeCommand, decodeCommand, getD_type, if_neg (by decide), getU64_id, journaled]

theorem validateRecord_encodeCommand (ordinal : UInt64) (command : Command) :
    validateRecord (encodeCommand ordinal command) ordinal = none := by
  cases command with
  | newOrder order => exact (validateRecord_recordBytes (Or.inl rfl) _ _ _).mpr rfl
  | cancel orderId => exact (validateRecord_recordBytes (Or.inr rfl) _ _ _).mpr rfl

theorem length_encodeCommand (ordinal : UInt64) (command : Command) :
    (encodeCommand ordinal command).length = kRecordSize := by
  cases command <;> exact length_recordBytes _ _ _

/-! ### The round trip -/

theorem getU64_ordinal_encodeCommand (ordinal : UInt64) (command : Command) :
    getU64 (encodeCommand ordinal command) 8 = ordinal := by
  cases command <;> exact getU64_ordinal _ _ _

/-- The writer never looks at the sequence of an order. -/
theorem encodeCommand_journaled (ordinal : UInt64) (command : Command) :
    encodeCommand ordinal (journaled command) = encodeCommand ordinal command := by
  cases command <;> rfl

theorem encodeCommand_eq_iff {ordinal ordinal' : UInt64} {command command' : Command} :
    encodeCommand ordinal command = encodeCommand ordinal' command' ↔
      ordinal = ordinal' ∧ journaled command = journaled command' := by
  refine ⟨?_, ?_⟩
  · intro same
    refine ⟨?_, ?_⟩
    · rw [← getU64_ordinal_encodeCommand ordinal command, same, getU64_ordinal_encodeCommand]
    · rw [← decodeCommand_encodeCommand ordinal command, same, decodeCommand_encodeCommand]
  · rintro ⟨rfl, same⟩
    rw [← encodeCommand_journaled ordinal command, same, encodeCommand_journaled]

/-- The record format loses nothing but the sequence of an order. A record is valid for
its own ordinal only, its command is read back, and two records coincide only when their
ordinals and their commands do. -/
theorem record_round_trip :
    (∀ (ordinal : UInt64) (order : Order),
      (encodeCommand ordinal (.newOrder order)).length = 48 ∧
      (∀ expected, validateRecord (encodeCommand ordinal (.newOrder order)) expected = none ↔
        expected = ordinal) ∧
      decodeOrder (encodeCommand ordinal (.newOrder order)) = { order with sequence := 0 }) ∧
    (∀ ordinal orderId : UInt64,
      (encodeCommand ordinal (.cancel orderId)).length = 48 ∧
      (∀ expected, validateRecord (encodeCommand ordinal (.cancel orderId)) expected = none ↔
        expected = ordinal) ∧
      getU64 (encodeCommand ordinal (.cancel orderId)) 16 = orderId ∧
      (encodeCommand ordinal (.cancel orderId)).getD 6 0 = 2) ∧
    ∀ (n m : UInt64) (command command' : Command),
      encodeCommand n command = encodeCommand m command' ↔
        n = m ∧ journaled command = journaled command' := by
  refine ⟨?_, ?_, ?_⟩
  · intro ordinal order
    refine ⟨length_encodeCommand _ _, ?_, decodeOrder_recordBytes ordinal order⟩
    intro expected
    exact (validateRecord_recordBytes (Or.inl rfl) ordinal expected order).trans eq_comm
  · intro ordinal orderId
    refine ⟨length_encodeCommand _ _, ?_, getU64_id _ _ _, getD_type _ _ _⟩
    intro expected
    exact (validateRecord_recordBytes (Or.inr rfl) ordinal expected _).trans eq_comm
  · intro n m command command'
    exact encodeCommand_eq_iff

end Journal

end Lob
