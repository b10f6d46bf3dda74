import Mathlib.Algebra.BigOperators.Group.Multiset.Basic
import Mathlib.Algebra.Order.Group.Multiset
import Mathlib.Algebra.Ring.Nat
import Mathlib.Data.List.Sort

/-!
# Ranks and counts

The `rank`-th smallest member of a list, and how a count finds it: a member satisfies a
predicate that smaller values inherit exactly if at least `rank` members do. Counting by the
values of a key, the counts of several keys add up to the count of the members whose key is
among them. A histogram with a bucket for every key therefore finds the key of the
`rank`-th smallest member by adding up its buckets.
-/

namespace OrderStatistics

variable {α κ : Type*}

/-! ### Ranks -/

/-- The `rank`-th smallest member of a list, the smallest one having rank one. -/
def smallest (le : α → α → Prop) [DecidableRel le] (rank : Nat) (l : List α) : Option α :=
  (l.insertionSort le)[rank - 1]?

/-- In a list on which a predicate can only turn from true to false, it holds of as many
members from the front as satisfy it at all. -/
theorem getElem?_iff_lt_countP {p : α → Bool} {l : List α}
    (closed : l.Pairwise (fun a b => p b = true → p a = true)) {i : Nat} {a : α}
    (found : l[i]? = some a) : p a = true ↔ i < l.countP p := by
  induction l generalizing i with
  | nil => simp at found
  | cons first rest ih =>
      obtain ⟨inherits, closedRest⟩ := List.pairwise_cons.mp closed
      by_cases holds : p first = true
      · rw [List.countP_cons_of_pos holds]
        cases i with
        | zero =>
            obtain rfl : first = a := by simpa using found
            simp [holds]
        | succ i =>
            rw [ih closedRest (by simpa using found)]
            omega
      · have none : ∀ b ∈ first :: rest, ¬p b = true := by
          intro b member
          rcases List.mem_cons.mp member with rfl | later
          · exact holds
          · exact fun later' => holds (inherits b later later')
        rw [List.countP_eq_zero.mpr none]
        simp only [Nat.not_lt_zero, iff_false]
        exact none a (List.mem_of_getElem? found)

theorem exists_smallest (le : α → α → Prop) [DecidableRel le] {l : List α} {rank : Nat}
    (positive : 1 ≤ rank) (atMost : rank ≤ l.length) :
    ∃ a ∈ l, smallest le rank l = some a := by
  have inside : rank - 1 < (l.insertionSort le).length := by
    rw [List.length_insertionSort]
    omega
  refine ⟨_, ?_, List.getElem?_eq_getElem inside⟩
  exact (List.mem_insertionSort le).mp (List.getElem_mem inside)

section Smallest

variable {le : α → α → Prop} [DecidableRel le] [Std.Total le] [IsTrans α le]

/-- A predicate that smaller values inherit holds of the `rank`-th smallest member exactly if
`rank` members satisfy it. -/
theorem smallest_iff_le_countP {p : α → Bool} (inherits : ∀ a b, le a b → p b = true → p a = true)
    {l : List α} {rank : Nat} {a : α} (positive : 1 ≤ rank)
    (found : smallest le rank l = some a) : p a = true ↔ rank ≤ l.countP p := by
  have sorted := List.pairwise_insertionSort le l
  rw [getElem?_iff_lt_countP (sorted.imp (fun {a b} => inherits a b)) found,
    (List.perm_insertionSort le l).countP_eq]
  omega

/-- A higher rank belongs to a value that is at least as large. -/
theorem smallest_mono {l : List α} {rank rank' : Nat} {a b : α} (lower : rank ≤ rank')
    (found : smallest le rank l = some a) (found' : smallest le rank' l = some b) : le a b := by
  have sorted := List.pairwise_insertionSort le l
  obtain ⟨inside, rfl⟩ := List.getElem?_eq_some_iff.mp found
  obtain ⟨inside', rfl⟩ := List.getElem?_eq_some_iff.mp found'
  rcases Nat.lt_or_eq_of_le (Nat.sub_le_sub_right lower 1) with before | same
  · exact List.pairwise_iff_getElem.mp sorted _ _ inside inside' before
  · simp only [same]
    exact Std.Refl.refl _

end Smallest

/-! ### Counts -/

/-- Predicates that exclude each other are counted one after the other. -/
theorem countP_or_of_exclusive {p q : α → Prop} [DecidablePred p] [DecidablePred q]
    (exclusive : ∀ a, p a → ¬q a) (s : Multiset α) :
    s.countP (fun a => p a ∨ q a) = s.countP p + s.countP q := by
  induction s using Multiset.induction with
  | empty => simp
  | cons a s ih =>
      simp only [Multiset.countP_cons, ih]
      by_cases first : p a
      · simp only [first, exclusive a first, true_or, if_true, if_false]
        omega
      · simp only [first, false_or, if_false]
        omega

/-- The members whose key is in a list of different keys, counted key by key. -/
theorem sum_countP_keys [DecidableEq κ] (key : α → κ) (s : Multiset α) {keys : List κ}
    (distinct : keys.Nodup) :
    (keys.map (fun k => s.countP (fun a => key a = k))).sum =
      s.countP (fun a => key a ∈ keys) := by
  induction keys with
  | nil => simp
  | cons k keys ih =>
      obtain ⟨fresh, distinct'⟩ := List.nodup_cons.mp distinct
      have exclusive : ∀ a, key a = k → ¬key a ∈ keys := by
        rintro a rfl
        exact fresh
      simp only [List.map_cons, List.sum_cons, ih distinct', List.mem_cons]
      exact (countP_or_of_exclusive exclusive s).symm

end OrderStatistics
