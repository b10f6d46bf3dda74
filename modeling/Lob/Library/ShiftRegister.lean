import Mathlib.Data.BitVec
import Mathlib.Data.List.GetD
import Mathlib.Logic.Function.Iterate

/-!
# Reflected shift registers

The register of a cyclic redundancy check that takes its input least significant bit
first. One shift moves the register down and, when a set bit leaves it, adds the
polynomial by exclusive or; a symbol is absorbed by adding it to the register and
shifting once for each of its bits.

Shifts are additive in exclusive or and, when the polynomial has its top bit set,
injective. Symbols that fit into the register together can therefore be absorbed at
once, as one word, and a change confined to such a run of symbols always changes the
register, whatever follows.
-/

namespace ShiftRegister

variable {w k : Nat}

/-- One shift of the register. -/
def shift (poly register : BitVec w) : BitVec w :=
  if register.getLsbD 0 then (register >>> 1) ^^^ poly else register >>> 1

def shifts (poly : BitVec w) (count : Nat) : BitVec w → BitVec w := (shift poly)^[count]

/-- Absorb one symbol of `k` bits. -/
def absorb (poly register : BitVec w) (symbol : BitVec k) : BitVec w :=
  shifts poly k (register ^^^ symbol.setWidth w)

/-- Consecutive symbols as one word, the first one in the low bits. -/
def word (w : Nat) : List (BitVec k) → BitVec w
  | [] => 0
  | symbol :: symbols => symbol.setWidth w ^^^ (word w symbols <<< k)

/-! ### Shifts -/

section Shifts

variable (poly : BitVec w)

theorem getLsbD_shift (register : BitVec w) (i : Nat) :
    (shift poly register).getLsbD i =
      (register.getLsbD (i + 1) ^^ (register.getLsbD 0 && poly.getLsbD i)) := by
  rw [shift]
  cases low : register.getLsbD 0 <;> simp [Nat.add_comm]

theorem shift_xor (a b : BitVec w) : shift poly (a ^^^ b) = shift poly a ^^^ shift poly b := by
  apply BitVec.eq_of_getLsbD_eq
  intro i _
  simp only [getLsbD_shift, BitVec.getLsbD_xor]
  generalize a.getLsbD (i + 1) = p, b.getLsbD (i + 1) = q, poly.getLsbD i = r
  cases a.getLsbD 0 <;> cases b.getLsbD 0 <;> cases p <;> cases q <;> cases r <;> rfl

theorem shifts_xor (count : Nat) (a b : BitVec w) :
    shifts poly count (a ^^^ b) = shifts poly count a ^^^ shifts poly count b := by
  induction count generalizing a b with
  | zero => rfl
  | succ count ih =>
      simp only [shifts, Function.iterate_succ, Function.comp_apply, shift_xor]
      exact ih _ _

/-- A register whose low bits are clear only moves down. -/
theorem shifts_of_low_clear {register : BitVec w} {count : Nat}
    (clear : ∀ i < count, register.getLsbD i = false) :
    shifts poly count register = register >>> count := by
  induction count generalizing register with
  | zero => simp [shifts]
  | succ count ih =>
      have moved : shift poly register = register >>> 1 := by
        rw [shift, clear 0 (by omega), if_neg Bool.false_ne_true]
      have clear' : ∀ i < count, (register >>> 1).getLsbD i = false := by
        intro i less
        rw [BitVec.getLsbD_ushiftRight]
        exact clear (1 + i) (by omega)
      have step : shifts poly (count + 1) register = shifts poly count (register >>> 1) := by
        rw [← moved]
        exact Function.iterate_succ_apply _ _ _
      rw [step, ih clear', ← BitVec.shiftRight_add, Nat.add_comm 1 count]

variable {poly}

/-- The top bit of a shifted register is the bit that left it. -/
theorem getLsbD_shift_top (top : poly.msb = true) (register : BitVec w) :
    (shift poly register).getLsbD (w - 1) = register.getLsbD 0 := by
  have topBit : poly.getLsbD (w - 1) = true := by
    rw [← BitVec.msb_eq_getLsbD_last]
    exact top
  rw [getLsbD_shift, topBit, BitVec.getLsbD_of_ge register (w - 1 + 1) (by omega)]
  simp

theorem shift_injective (top : poly.msb = true) : Function.Injective (shift poly) := by
  intro a b same
  have low : a.getLsbD 0 = b.getLsbD 0 := by
    rw [← getLsbD_shift_top top a, ← getLsbD_shift_top top b, same]
  apply BitVec.eq_of_getLsbD_eq
  intro i _
  cases i with
  | zero => exact low
  | succ i =>
      have bit : (shift poly a).getLsbD i = (shift poly b).getLsbD i := by rw [same]
      rw [getLsbD_shift, getLsbD_shift, low] at bit
      simpa using bit

theorem shifts_injective (top : poly.msb = true) (count : Nat) :
    Function.Injective (shifts poly count) :=
  (shift_injective top).iterate count

end Shifts

/-! ### Words -/

section Words

variable {symbols symbols' : List (BitVec k)}

theorem getLsbD_word (positive : 0 < k) (symbols : List (BitVec k)) (i : Nat) :
    (word w symbols).getLsbD i =
      (decide (i < w) && (symbols.getD (i / k) 0).getLsbD (i % k)) := by
  induction symbols generalizing i with
  | nil => simp [word]
  | cons symbol symbols ih =>
      rw [word, BitVec.getLsbD_xor, BitVec.getLsbD_setWidth, BitVec.getLsbD_shiftLeft, ih]
      by_cases first : i < k
      · rw [Nat.div_eq_of_lt first, Nat.mod_eq_of_lt first]
        simp [first]
      · have later : k ≤ i := by omega
        rw [BitVec.getLsbD_of_ge symbol i later, Nat.div_eq_sub_div positive later,
          Nat.mod_eq_sub_mod later]
        by_cases inside : i < w
        · have inside' : i - k < w := by omega
          simp [first, inside, inside']
        · simp [inside]

/-- A word ends with its symbols. -/
theorem getLsbD_word_of_ge (positive : 0 < k) {i : Nat} (beyond : k * symbols.length ≤ i) :
    (word w symbols).getLsbD i = false := by
  have outside : symbols.length ≤ i / k := by
    rw [Nat.le_div_iff_mul_le positive, Nat.mul_comm]
    exact beyond
  rw [getLsbD_word positive, List.getD_eq_default _ _ outside]
  simp

/-- Words that fit into the register determine their symbols. -/
theorem eq_of_word_eq (positive : 0 < k) (fits : k * symbols.length ≤ w)
    (sameLength : symbols.length = symbols'.length) (same : word w symbols = word w symbols') :
    symbols = symbols' := by
  apply List.ext_getElem sameLength
  intro j inside inside'
  apply BitVec.eq_of_getLsbD_eq
  intro i less
  have index : k * j + i < w := by
    have next : k * (j + 1) ≤ k * symbols.length := Nat.mul_le_mul_left k inside
    rw [Nat.mul_succ] at next
    omega
  have quotient : (k * j + i) / k = j := by
    rw [Nat.mul_add_div positive, Nat.div_eq_of_lt less, Nat.add_zero]
  have remainder : (k * j + i) % k = i := by
    rw [Nat.mul_add_mod, Nat.mod_eq_of_lt less]
  have bit : (word w symbols).getLsbD (k * j + i) = (word w symbols').getLsbD (k * j + i) := by
    rw [same]
  rw [getLsbD_word positive, getLsbD_word positive, quotient, remainder] at bit
  simpa [index, inside, inside'] using bit

end Words

/-! ### Runs of symbols -/

section Runs

variable {poly register : BitVec w} {symbols symbols' : List (BitVec k)}

/-- Symbols that fit into the register together are absorbed as one word. -/
theorem foldl_absorb_eq_shifts (positive : 0 < k) (fits : k * symbols.length ≤ w) :
    symbols.foldl (absorb poly) register =
      shifts poly (k * symbols.length) (register ^^^ word w symbols) := by
  induction symbols generalizing register with
  | nil => simp [word, shifts]
  | cons symbol symbols ih =>
      rw [List.length_cons, Nat.mul_succ] at fits
      -- The later symbols are still low enough to be moved up by one symbol and back.
      have lifted : shifts poly k (word w symbols <<< k) = word w symbols := by
        rw [shifts_of_low_clear poly (by intro i less; simp [less])]
        apply BitVec.eq_of_getLsbD_eq
        intro i less
        rw [BitVec.getLsbD_ushiftRight, BitVec.getLsbD_shiftLeft]
        by_cases inside : k + i < w
        · simp [inside]
        · have past : (word w symbols).getLsbD i = false :=
            getLsbD_word_of_ge positive (by omega)
          simp [inside, past]
      rw [List.foldl_cons, ih (by omega), List.length_cons, Nat.mul_succ]
      have compose : ∀ r, shifts poly (k * symbols.length + k) r =
          shifts poly (k * symbols.length) (shifts poly k r) :=
        fun r => Function.iterate_add_apply _ _ _ _
      rw [compose, word, ← BitVec.xor_assoc, shifts_xor poly k, lifted, absorb]

theorem absorb_injective (top : poly.msb = true) (symbol : BitVec k) :
    Function.Injective (fun register => absorb poly register symbol) := by
  intro a b same
  exact (BitVec.xor_left_inj _).mp (shifts_injective top k same)

/-- A difference in the register is never absorbed. -/
theorem foldl_absorb_injective (top : poly.msb = true) (symbols : List (BitVec k)) :
    Function.Injective (symbols.foldl (absorb poly)) := by
  induction symbols with
  | nil => exact Function.injective_id
  | cons symbol symbols ih =>
      intro a b same
      exact absorb_injective top symbol (ih same)

/-- Detection of bursts: changing symbols that fit into the register together changes the
register that the whole input leaves. -/
theorem foldl_absorb_ne_of_burst (top : poly.msb = true) (positive : 0 < k)
    (fits : k * symbols.length ≤ w) (sameLength : symbols.length = symbols'.length)
    (changed : symbols ≠ symbols') (before after : List (BitVec k)) :
    (before ++ symbols ++ after).foldl (absorb poly) register ≠
      (before ++ symbols' ++ after).foldl (absorb poly) register := by
  intro same
  rw [List.foldl_append, List.foldl_append, List.foldl_append, List.foldl_append] at same
  have middle := foldl_absorb_injective top after same
  generalize before.foldl (absorb poly) register = reached at middle
  rw [foldl_absorb_eq_shifts positive fits,
    foldl_absorb_eq_shifts positive (sameLength ▸ fits), ← sameLength] at middle
  have words := (BitVec.xor_right_inj _).mp (shifts_injective top _ middle)
  exact changed (eq_of_word_eq positive fits sameLength words)

end Runs

end ShiftRegister
