import Lob.Journal.Replay
import Lob.MatchingEngine.Checked

/-!
# The fuzz target

`fuzz_matching_engine` cuts its input into commands of 24 bytes, applies them to one engine
and aborts if the book ever fails its own check. It never does: whatever the bytes are, no
assertion of the engine fails and the check passes after every command.

The format loses little. Every sequence of at most 2048 commands whose prices fit into 31 bits
and a sign has an input that makes the target run just that sequence.
-/

namespace Lob

namespace FuzzTarget

variable {order : Order} {byte : UInt8}

def kCommandBytes : Nat := 24
def kMaxCommands : Nat := 2048

inductive Exit where
  | returned
  | aborted
  deriving DecidableEq

/-- How the target ends, with the states of the engine after each command; the states are not
part of the target. -/
structure Outcome where
  exit : Exit
  states : List MatchingEngine

def readU64 (data : List UInt8) (offset : Nat) : UInt64 := Journal.getU64 data offset

def readU32 (data : List UInt8) (offset : Nat) : UInt32 := Journal.getU32 data offset

/-- The order that the bytes of a command stand for. -/
def readOrder (command : List UInt8) : Order :=
  let rawPrice := readU64 command 13
  let price := (rawPrice &&& 0x7FFFFFFF).toInt64
  { id := readU64 command 1
    side := ⟨command.getD 9 0 &&& 0x03⟩
    type := ⟨command.getD 10 0 &&& 0x03⟩
    timeInForce := ⟨command.getD 11 0 &&& 0x03⟩
    flags := ⟨command.getD 12 0 &&& 0x07⟩
    price := if command.getD 9 0 &&& 0x80 ≠ 0 then -price else price
    quantity := readU32 command 20 }

/-- The command that the bytes stand for. -/
def readCommand (command : List UInt8) : Command :=
  let opcode := command.getD 0 0
  if opcode &&& 0x07 = 0 then .cancel (readU64 command 1) else .newOrder (readOrder command)

/-- The vector of trades is cleared before an order only. -/
def applyCommand (engine : MatchingEngine) (trades : List Trade) : Command → Except Fault Response
  | .newOrder order => engine.processOrder order []
  | .cancel orderId => engine.apply (.cancel orderId) trades

/-- The loop of `LLVMFuzzerTestOneInput`, from its pass `i` on. -/
def loop (data : List UInt8) (engine : MatchingEngine) (trades : List Trade)
    (states : List MatchingEngine) (i : Nat) : Nat → Except Fault Outcome
  | 0 => .ok ⟨.returned, states⟩
  | remaining + 1 => do
      let command := data.drop (i * kCommandBytes)
      let response ← applyCommand engine trades (readCommand command)
      if response.engine.book.checkInvariants then
        loop data response.engine response.outTrades (states ++ [response.engine]) (i + 1)
          remaining
      else return ⟨.aborted, states ++ [response.engine]⟩

/-- The number of passes of the loop. -/
def passes (data : List UInt8) : Nat := min (data.length / kCommandBytes) kMaxCommands

/-- `LLVMFuzzerTestOneInput`. -/
def testOneInput (data : List UInt8) : Except Fault Outcome :=
  loop data (.fresh {}) [] [] 0 (passes data)

/-! ### Every input -/

/-- The commands that the passes of the loop apply, from pass `i` on. -/
def commandsFrom (data : List UInt8) (i : Nat) : Nat → List Command
  | 0 => []
  | remaining + 1 =>
      readCommand (data.drop (i * kCommandBytes)) :: commandsFrom data (i + 1) remaining

def commands (data : List UInt8) : List Command := commandsFrom data 0 (passes data)

@[simp] theorem length_commandsFrom (data : List UInt8) (i remaining : Nat) :
    (commandsFrom data i remaining).length = remaining := by
  induction remaining generalizing i with
  | zero => rfl
  | succ remaining ih => rw [commandsFrom, List.length_cons, ih]

/-- Where a cancel leaves an earlier order's trades in the vector, the engine does not see it. -/
theorem applyCommand_of_apply {engine : MatchingEngine} {command : Command} {response : Response}
    (applied : engine.apply command [] = .ok response) (trades : List Trade) :
    ∃ left, applyCommand engine trades command = .ok { response with outTrades := left } := by
  cases command with
  | newOrder order => exact ⟨response.outTrades, applied⟩
  | cancel orderId =>
      simp only [MatchingEngine.apply] at applied
      cases canceled : engine.cancel orderId with
      | error fault =>
          rw [canceled] at applied
          contradiction
      | ok result =>
          rw [canceled] at applied
          obtain rfl := Except.ok.inj applied
          exact ⟨trades, by rw [applyCommand, MatchingEngine.apply, canceled]; rfl⟩

/-- The loop takes the engine through the states of a run over the commands. -/
theorem loop_eq (data : List UInt8) {engine : MatchingEngine} {events remaining : Nat}
    (counted : engine.Counted events) (room : events + remaining < 2 ^ 64) (trades : List Trade)
    (states : List MatchingEngine) (i : Nat) :
    ∃ answers, engine.responses (commandsFrom data i remaining) = .ok answers ∧
      loop data engine trades states i remaining =
        .ok ⟨.returned, states ++ answers.map Response.engine⟩ := by
  induction remaining generalizing engine events trades states i with
  | zero => exact ⟨[], rfl, by rw [loop, List.map_nil, List.append_nil]⟩
  | succ remaining ih =>
      obtain ⟨response, applied, counted'⟩ := counted.apply (by omega)
        (readCommand (data.drop (i * kCommandBytes))) []
      obtain ⟨left, applied'⟩ := applyCommand_of_apply applied trades
      obtain ⟨answers, run, rest⟩ := ih counted' (by omega) left (states ++ [response.engine])
        (i + 1)
      refine ⟨response :: answers, ?_, ?_⟩
      · simp only [commandsFrom, MatchingEngine.responses, applied, run, bind, Except.bind, pure,
          Except.pure]
      · simp only [loop, applied', counted'.checkInvariants, bind, Except.bind, if_true]
        rw [rest, List.append_assoc, List.map_cons, List.singleton_append]

theorem passes_lt (data : List UInt8) : 0 + passes data < 2 ^ 64 := by
  rw [Nat.zero_add]
  exact (Nat.min_le_right _ _).trans_lt (by decide)

theorem testOneInput_eq (data : List UInt8) :
    ∃ answers, (MatchingEngine.fresh {}).responses (commands data) = .ok answers ∧
      testOneInput data = .ok ⟨.returned, answers.map Response.engine⟩ :=
  loop_eq data (MatchingEngine.counted_fresh {}) (passes_lt data) [] [] 0

/-- Whatever the input is, the target returns. It has taken the engine through the states of a
run over the commands of the input, and all of them have passed the check. -/
theorem never_aborts (data : List UInt8) :
    ∃ answers, (MatchingEngine.fresh {}).responses (commands data) = .ok answers ∧
      testOneInput data = .ok ⟨.returned, answers.map Response.engine⟩ ∧
      ∀ answer ∈ answers, answer.engine.book.checkInvariants = true := by
  obtain ⟨answers, run, returned⟩ := testOneInput_eq data
  have room : 0 + (commands data).length < 2 ^ 64 := by
    rw [commands, length_commandsFrom]
    exact passes_lt data
  exact ⟨answers, run, returned, (MatchingEngine.counted_fresh {}).responses room run⟩

/-! ### Every sequence of commands -/

/-- What the bytes of a command can say. -/
structure Expressible (order : Order) : Prop where
  side : order.side.byte < 4
  type : order.type.byte < 4
  timeInForce : order.timeInForce.byte < 4
  flags : order.flags.byte < 8
  price : order.price.toInt.natAbs < 2 ^ 31

/-- Every cancel is expressible. -/
def CommandExpressible : Command → Prop
  | .newOrder order => Expressible order
  | .cancel _ => True

/-- The first byte with the id behind it. -/
def header (opcode : UInt8) (id : UInt64) : List UInt8 :=
  Journal.putU64 ((List.replicate kCommandBytes 0).set 0 opcode) 1 id

def writeOrder (order : Order) : List UInt8 :=
  let sign : UInt8 := if order.price < 0 then 0x80 else 0
  let bytes := header 1 order.id
  let bytes := (((bytes.set 9 (order.side.byte ||| sign)).set 10 order.type.byte).set 11
    order.timeInForce.byte).set 12 order.flags.byte
  let bytes := Journal.putU32 bytes 13 (UInt32.ofNat order.price.toInt.natAbs)
  Journal.putU32 bytes 20 order.quantity

def writeCommand : Command → List UInt8
  | .newOrder order => writeOrder order
  | .cancel orderId => header 0 orderId

@[simp] theorem length_header (opcode : UInt8) (id : UInt64) :
    (header opcode id).length = kCommandBytes := by
  simp [header, Journal.putU64]

@[simp] theorem length_writeCommand (command : Command) :
    (writeCommand command).length = kCommandBytes := by
  cases command <;> simp [writeCommand, writeOrder, Journal.putU32]

/-! The fields are read back as they were written. -/

theorem opcode_header (opcode : UInt8) (id : UInt64) : (header opcode id).getD 0 0 = opcode := by
  rw [header, Journal.putU64, LittleEndian.getD_put_of_outside (by omega), LittleEndian.getD_set,
    if_pos ⟨rfl, by simp [kCommandBytes]⟩]

theorem readU64_header (opcode : UInt8) (id : UInt64) : readU64 (header opcode id) 1 = id :=
  Journal.getU64_putU64 (by simp [kCommandBytes])

/-- The bytes of an order before its price. -/
theorem getD_writeOrder {k : Nat} (before : k < 13) :
    (writeOrder order).getD k 0 =
      if k = 12 then order.flags.byte
      else if k = 11 then order.timeInForce.byte
      else if k = 10 then order.type.byte
      else if k = 9 then order.side.byte ||| if order.price < 0 then 0x80 else 0
      else (header 1 order.id).getD k 0 := by
  have length : (header 1 order.id).length = 24 := length_header _ _
  rw [writeOrder, Journal.putU32, LittleEndian.getD_put_of_outside (by omega), Journal.putU32,
    LittleEndian.getD_put_of_outside (by omega)]
  simp only [LittleEndian.getD_set, List.length_set, length, show k < 24 by omega, and_true,
    eq_comm (b := k)]

theorem readU64_writeOrder (order : Order) : readU64 (writeOrder order) 1 = order.id := by
  refine Eq.trans (congrArg UInt64.ofNat (LittleEndian.get_congr (fun i less => ?_)))
    (readU64_header 1 order.id)
  rw [getD_writeOrder (by omega), if_neg (by omega), if_neg (by omega), if_neg (by omega),
    if_neg (by omega)]

theorem readU32_writeOrder (order : Order) : readU32 (writeOrder order) 20 = order.quantity := by
  refine Journal.getU32_putU32 ?_
  simp [Journal.putU32, kCommandBytes]

/-- The mask of the price keeps 31 bits of its lowest four bytes. -/
theorem rawPrice_writeOrder (small : order.price.toInt.natAbs < 2 ^ 31) :
    readU64 (writeOrder order) 13 &&& 0x7FFFFFFF = UInt64.ofNat order.price.toInt.natAbs := by
  have width := LittleEndian.get_lt (writeOrder order) 13 8
  have low : LittleEndian.get (writeOrder order) 13 4 = order.price.toInt.natAbs := by
    rw [writeOrder, Journal.putU32, LittleEndian.get_put_of_disjoint (by omega), Journal.putU32,
      LittleEndian.get_put (by simp [kCommandBytes]),
      UInt32.toNat_ofNat_of_lt' (small.trans (by decide)), Nat.mod_eq_of_lt (by omega)]
  apply UInt64.toNat_inj.mp
  rw [UInt64.toNat_and, readU64, Journal.getU64, UInt64.toNat_ofNat_of_lt' width,
    UInt64.toNat_ofNat_of_lt' (small.trans (by decide))]
  refine (Nat.and_two_pow_sub_one_eq_mod _ 31).trans ?_
  rw [← Nat.mod_mod_of_dvd _ (show 2 ^ 31 ∣ 2 ^ (8 * 4) by decide),
    LittleEndian.get_mod (by omega), low, Nat.mod_eq_of_lt small]

/-- The price is put together from its magnitude and its sign. -/
theorem price_eq {price : Int64} (small : price.toInt.natAbs < 2 ^ 31) :
    (if price < 0 then -(UInt64.ofNat price.toInt.natAbs).toInt64
      else (UInt64.ofNat price.toInt.natAbs).toInt64) = price := by
  have sign : price < 0 ↔ price.toInt < 0 := Int64.lt_iff_toInt_lt
  apply Int64.toInt_inj.mp
  rw [UInt64.toInt64_ofNat']
  split
  · rename_i negative
    have below := sign.mp negative
    rw [Int64.toInt_neg_ofNat_of_le (by omega)]
    omega
  · rename_i positive
    have above := mt sign.mpr positive
    rw [Int64.toInt_ofNat_of_lt (by omega)]
    omega

/-- The masks keep a small byte, and tell it from the bit of the sign. -/
theorem masks_of_lt : ∀ byte : BitVec 8, byte < 4#8 →
    byte &&& 3#8 = byte ∧ (byte ||| 0x80#8) &&& 3#8 = byte ∧
      (byte ||| 0x80#8) &&& 0x80#8 ≠ 0#8 ∧ byte &&& 0x80#8 = 0#8 := by
  decide

theorem flags_mask_of_lt : ∀ byte : BitVec 8, byte < 8#8 → byte &&& 7#8 = byte := by decide

theorem and_three (small : byte < 4) : byte &&& 0x03 = byte :=
  UInt8.toBitVec_inj.mp (masks_of_lt byte.toBitVec (UInt8.lt_iff_toBitVec_lt.mp small)).1

theorem signed_and_three (small : byte < 4) (negative : Prop) [Decidable negative] :
    (byte ||| if negative then 0x80 else 0) &&& 0x03 = byte := by
  split
  · exact UInt8.toBitVec_inj.mp
      (masks_of_lt byte.toBitVec (UInt8.lt_iff_toBitVec_lt.mp small)).2.1
  · rw [UInt8.or_zero]
    exact and_three small

theorem signed_and_sign (small : byte < 4) (negative : Prop) [Decidable negative] :
    (byte ||| if negative then 0x80 else 0) &&& 0x80 ≠ 0 ↔ negative := by
  obtain ⟨_, _, set, clear⟩ := masks_of_lt byte.toBitVec (UInt8.lt_iff_toBitVec_lt.mp small)
  split
  · rename_i isNegative
    exact ⟨fun _ => isNegative, fun _ zero => set (UInt8.toBitVec_inj.mpr zero)⟩
  · rename_i isPositive
    rw [UInt8.or_zero]
    exact ⟨fun nonzero => absurd (UInt8.toBitVec_inj.mp clear) nonzero,
      fun isNegative => absurd isNegative isPositive⟩

/-- Everything but the order's sequence, which the engine sets itself, is read back. -/
theorem readOrder_writeOrder (expressible : Expressible order) :
    readOrder (writeOrder order) = { order with sequence := 0 } := by
  have sign := signed_and_sign expressible.side (order.price < 0)
  have flags : order.flags.byte &&& 0x07 = order.flags.byte :=
    UInt8.toBitVec_inj.mp (flags_mask_of_lt _ (UInt8.lt_iff_toBitVec_lt.mp expressible.flags))
  have ninth : (writeOrder order).getD 9 0 =
      order.side.byte ||| if order.price < 0 then 0x80 else 0 := getD_writeOrder (by omega)
  have tenth : (writeOrder order).getD 10 0 = order.type.byte := getD_writeOrder (by omega)
  have eleventh : (writeOrder order).getD 11 0 = order.timeInForce.byte :=
    getD_writeOrder (by omega)
  have twelfth : (writeOrder order).getD 12 0 = order.flags.byte := getD_writeOrder (by omega)
  simp only [readOrder, ninth, tenth, eleventh, twelfth, readU64_writeOrder, readU32_writeOrder,
    rawPrice_writeOrder expressible.price, signed_and_three expressible.side, sign, flags,
    and_three expressible.type, and_three expressible.timeInForce, price_eq expressible.price]

theorem readCommand_writeCommand {command : Command} (expressible : CommandExpressible command) :
    readCommand (writeCommand command) = Journal.journaled command := by
  cases command with
  | newOrder order =>
      have opcode : (writeOrder order).getD 0 0 = 1 :=
        (getD_writeOrder (by omega)).trans (opcode_header 1 order.id)
      rw [writeCommand, readCommand, opcode, if_neg (by decide),
        readOrder_writeOrder expressible, Journal.journaled]
  | cancel orderId =>
      rw [writeCommand, readCommand, opcode_header, if_pos (by decide), readU64_header,
        Journal.journaled]

/-- A command is read from its own 24 bytes. -/
theorem readCommand_append {command : List UInt8} (length : command.length = kCommandBytes)
    (rest : List UInt8) : readCommand (command ++ rest) = readCommand command := by
  have byte {k : Nat} (inside : k < kCommandBytes) :
      (command ++ rest).getD k 0 = command.getD k 0 :=
    List.getD_append _ _ _ _ (by omega)
  have field {offset width : Nat} (inside : offset + width ≤ kCommandBytes) :
      LittleEndian.get (command ++ rest) offset width = LittleEndian.get command offset width :=
    LittleEndian.get_congr (fun i less => byte (by omega))
  simp only [readCommand, readOrder, readU64, readU32, Journal.getU64, Journal.getU32,
    byte (show 0 < kCommandBytes by decide), byte (show 9 < kCommandBytes by decide),
    byte (show 10 < kCommandBytes by decide), byte (show 11 < kCommandBytes by decide),
    byte (show 12 < kCommandBytes by decide), field (show 1 + 8 ≤ kCommandBytes by decide),
    field (show 13 + 8 ≤ kCommandBytes by decide), field (show 20 + 4 ≤ kCommandBytes by decide)]

/-- The input for a sequence of commands. -/
def writeCommands (commands : List Command) : List UInt8 := commands.flatMap writeCommand

theorem length_writeCommands (commands : List Command) :
    (writeCommands commands).length = commands.length * kCommandBytes := by
  rw [writeCommands, List.length_flatMap]
  simp

theorem commandsFrom_writeCommands {commands : List Command}
    (expressible : ∀ command ∈ commands, CommandExpressible command) {data : List UInt8} {i : Nat}
    (here : data.drop (i * kCommandBytes) = writeCommands commands) :
    commandsFrom data i commands.length = commands.map Journal.journaled := by
  induction commands generalizing i with
  | nil => rfl
  | cons command commands ih =>
      have split : data.drop (i * kCommandBytes) = writeCommand command ++ writeCommands commands :=
        here
      have later : data.drop ((i + 1) * kCommandBytes) = writeCommands commands := by
        rw [Nat.succ_mul, ← List.drop_drop, split]
        exact List.drop_left' (length_writeCommand command)
      rw [List.length_cons, commandsFrom, split, readCommand_append (length_writeCommand command),
        readCommand_writeCommand (expressible command List.mem_cons_self),
        ih (fun other member => expressible other (List.mem_cons_of_mem _ member)) later,
        List.map_cons]

/-- Every sequence of up to 2048 expressible commands has an input of as many commands, on which
the target takes the engine through the states of this sequence. -/
theorem reaches_every_sequence (commands : List Command) (few : commands.length ≤ kMaxCommands)
    (expressible : ∀ command ∈ commands, CommandExpressible command) :
    ∃ data answers, data.length = commands.length * kCommandBytes ∧
      (MatchingEngine.fresh {}).responses commands = .ok answers ∧
      testOneInput data = .ok ⟨.returned, answers.map Response.engine⟩ := by
  have length := length_writeCommands commands
  have count : passes (writeCommands commands) = commands.length := by
    rw [passes, length, Nat.mul_div_cancel _ (by decide), Nat.min_eq_left few]
  have same : FuzzTarget.commands (writeCommands commands) = commands.map Journal.journaled := by
    rw [FuzzTarget.commands, count]
    exact commandsFrom_writeCommands expressible (by rw [Nat.zero_mul, List.drop_zero])
  obtain ⟨answers, run, returned⟩ := testOneInput_eq (writeCommands commands)
  rw [same, responses_journaled] at run
  exact ⟨writeCommands commands, answers, length, run, returned⟩

/-- An order of each kind of time in force, one of them with a negative price, and a cancel. -/
theorem reaches_four_commands :
    let commands : List Command :=
      [.newOrder { id := 7, price := 10000, quantity := 5 },
        .newOrder { id := 8, side := .sell, timeInForce := .ioc, price := -3, quantity := 1 },
        .newOrder { id := 9, side := .sell, timeInForce := .fok, price := 9999, quantity := 2 },
        .cancel 7]
    ∃ data answers, data.length = 96 ∧
      (MatchingEngine.fresh {}).responses commands = .ok answers ∧
      testOneInput data = .ok ⟨.returned, answers.map Response.engine⟩ := by
  intro commands
  refine reaches_every_sequence commands (by decide) ?_
  simp only [commands, List.forall_mem_cons, List.not_mem_nil, CommandExpressible]
  exact ⟨⟨by decide, by decide, by decide, by decide, by decide⟩,
    ⟨by decide, by decide, by decide, by decide, by decide⟩,
    ⟨by decide, by decide, by decide, by decide, by decide⟩, trivial, nofun⟩

end FuzzTarget

end Lob
