import Mathlib.Data.List.DropRight

/-!
# The last items of a sequence

A buffer that drops its oldest item when it grows too long holds the last items of
everything that was ever put into it. `List.rtake` is the specification: the buffer after a
number of pushes is the end of the sequence of pushed items.
-/

namespace Window

variable {α : Type} {depth : Nat}

/-- Put an item behind the others, and drop the oldest one if they are too many. -/
def push (depth : Nat) (buffer : List α) (item : α) : List α :=
  if (buffer ++ [item]).length > depth then (buffer ++ [item]).drop 1 else buffer ++ [item]

theorem length_rtake (items : List α) (n : Nat) : (items.rtake n).length = min n items.length := by
  rw [List.rtake, List.length_drop]
  omega

/-- A push moves the window on by one item. -/
theorem push_rtake (depth : Nat) (items : List α) (item : α) :
    push depth (items.rtake depth) item = (items ++ [item]).rtake depth := by
  rw [push, List.length_append, List.length_singleton, length_rtake]
  split
  · rename_i full
    rw [List.rtake, List.rtake, List.length_append, List.length_singleton]
    rcases Nat.eq_zero_or_pos depth with rfl | positive
    · simp
    · rw [← List.drop_append_of_le_length (by omega), List.drop_drop]
      congr 1
      omega
  · rename_i room
    rw [List.rtake, List.rtake, List.length_append, List.length_singleton]
    have whole : items.length + 1 ≤ depth := by omega
    rw [Nat.sub_eq_zero_of_le whole, Nat.sub_eq_zero_of_le (by omega), List.drop_zero,
      List.drop_zero]

theorem length_push_le {buffer : List α} (fits : buffer.length ≤ depth) (item : α) :
    (push depth buffer item).length ≤ depth := by
  rw [push]
  split
  · rw [List.length_drop, List.length_append, List.length_singleton]
    omega
  · omega

/-- The item that was put in last is the last one. -/
theorem getLast?_push (positive : 0 < depth) (buffer : List α) (item : α) :
    (push depth buffer item).getLast? = some item := by
  rw [push]
  split
  · rename_i full
    rw [List.length_append, List.length_singleton] at full
    have shorter : ¬(buffer ++ [item]).length ≤ 1 := by
      rw [List.length_append, List.length_singleton]
      omega
    rw [List.getLast?_drop, if_neg shorter, List.getLast?_concat]
  · exact List.getLast?_concat

theorem getLast?_foldl_push (positive : 0 < depth) (buffer : List α) {items : List α}
    (some : items ≠ []) :
    (items.foldl (push depth) buffer).getLast? = items.getLast? := by
  obtain ⟨front, last, rfl⟩ := (List.eq_nil_or_concat items).resolve_left some
  rw [List.concat_eq_append, List.foldl_concat, getLast?_push positive, List.getLast?_concat]

theorem getLast?_rtake {n : Nat} (positive : 0 < n) (items : List α) :
    (items.rtake n).getLast? = items.getLast? := by
  rw [List.rtake, List.getLast?_drop]
  split
  · rename_i short
    have empty : items.length = 0 := by omega
    rw [List.length_eq_zero_iff.mp empty]
    rfl
  · rfl

theorem rtake_one (items : List α) : items.rtake 1 = items.getLast?.toList := by
  induction items using List.reverseRecOn with
  | nil => rfl
  | append_singleton front last _ =>
      rw [List.rtake_concat_succ, List.rtake_zero, List.getLast?_concat]
      rfl

/-- A window of a window. -/
theorem rtake_rtake (items : List α) (n k : Nat) :
    (items.rtake n).rtake k = items.rtake (min k n) := by
  rw [List.rtake, length_rtake, List.rtake, List.rtake, List.drop_drop]
  congr 1
  omega

theorem rtake_min_length (items : List α) (n : Nat) :
    items.rtake (min n items.length) = items.rtake n := by
  rw [List.rtake, List.rtake]
  congr 1
  omega

end Window
