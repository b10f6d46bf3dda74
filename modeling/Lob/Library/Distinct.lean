import Mathlib.Data.List.Dedup
import Mathlib.Data.List.Sort
import Mathlib.Order.RelClasses

/-!
# The distinct elements of a list, in order

`distinct lt l` lists what occurs in `l`, once each and in the order of `lt`. It is the only
strictly sorted list with these members, so a sorted structure over the same elements
presents them in just this sequence.
-/

namespace SortedList

variable {α : Type*} [DecidableEq α] {lt : α → α → Prop} [DecidableRel lt] {l : List α}

/-- The members of a list without repetition, least one for `lt` first. -/
def distinct (lt : α → α → Prop) [DecidableRel lt] (l : List α) : List α :=
  l.dedup.insertionSort (fun a b => ¬lt b a)

theorem distinct_perm (lt : α → α → Prop) [DecidableRel lt] (l : List α) :
    (distinct lt l).Perm l.dedup := List.perm_insertionSort _ _

@[simp] theorem mem_distinct {a : α} : a ∈ distinct lt l ↔ a ∈ l := by
  rw [(distinct_perm lt l).mem_iff, List.mem_dedup]

theorem length_distinct (lt : α → α → Prop) [DecidableRel lt] (l : List α) :
    (distinct lt l).length = l.dedup.length := (distinct_perm lt l).length_eq

theorem head?_distinct_eq_none_iff :
    (distinct lt l).head? = none ↔ l = [] := by
  rw [List.head?_eq_none_iff, List.eq_nil_iff_forall_not_mem, List.eq_nil_iff_forall_not_mem]
  simp only [mem_distinct]

theorem pairwise_distinct (lt : α → α → Prop) [DecidableRel lt] [IsStrictTotalOrder α lt]
    (l : List α) : (distinct lt l).Pairwise lt := by
  have total : Std.Total (fun a b : α => ¬lt b a) :=
    ⟨fun a b => by
      by_cases less : lt b a
      · exact Or.inr (asymm_of lt less)
      · exact Or.inl less⟩
  have transitive : IsTrans α (fun a b => ¬lt b a) :=
    ⟨fun a b c notBefore notBefore' less => by
      rcases trichotomous_of lt a b with before | rfl | after
      · exact notBefore' (trans_of lt less before)
      · exact notBefore' less
      · exact notBefore after⟩
  have sorted := List.pairwise_insertionSort (fun a b => ¬lt b a) l.dedup
  have nodup : (distinct lt l).Nodup := (distinct_perm lt l).nodup_iff.mpr l.nodup_dedup
  refine (sorted.and nodup).imp ?_
  rintro a b ⟨notAfter, different⟩
  exact ((trichotomous_of lt a b).resolve_right (by simp [different, notAfter]))

variable [IsStrictTotalOrder α lt]

/-- A strictly sorted list is the list of its own members. -/
theorem eq_distinct {l sorted : List α} (increasing : sorted.Pairwise lt)
    (members : ∀ a, a ∈ sorted ↔ a ∈ l) : sorted = distinct lt l := by
  have irreflexive : Std.Irrefl lt := ⟨irrefl_of lt⟩
  have antisymmetric : Std.Antisymm lt :=
    ⟨fun a b less greater => absurd (trans_of lt less greater) (irrefl_of lt a)⟩
  apply List.Pairwise.eq_of_mem_iff increasing (pairwise_distinct lt l)
  intro a
  rw [members, mem_distinct]

theorem head?_distinct_eq_some_iff {a : α} :
    (distinct lt l).head? = some a ↔ a ∈ l ∧ ∀ b ∈ l, ¬lt b a := by
  have sorted := pairwise_distinct lt l
  have members : ∀ b, b ∈ distinct lt l ↔ b ∈ l := fun b => mem_distinct
  cases shape : distinct lt l with
  | nil =>
      rw [shape] at members
      simp only [List.head?_nil, reduceCtorEq, false_iff, not_and]
      intro member
      exact absurd ((members a).mpr member) List.not_mem_nil
  | cons first rest =>
      rw [shape] at members sorted
      obtain ⟨least, _⟩ := List.pairwise_cons.mp sorted
      rw [List.head?_cons, Option.some.injEq]
      constructor
      · rintro rfl
        refine ⟨(members first).mp List.mem_cons_self, fun b member before => ?_⟩
        rcases List.mem_cons.mp ((members b).mpr member) with rfl | later
        · exact irrefl_of lt b before
        · exact asymm_of lt before (least b later)
      · rintro ⟨member, minimal⟩
        rcases List.mem_cons.mp ((members a).mpr member) with rfl | later
        · rfl
        · exact absurd (least a later) (minimal first ((members first).mp List.mem_cons_self))

end SortedList
