import Mathlib.Algebra.BigOperators.Fin
import Mathlib.Algebra.Order.BigOperators.Group.Finset

/-!
# Threads that wait to be woken

A family of threads, each at some point of its program. Some points are `blocked`: the
thread sleeps until another one wakes it. A wakeup is not lost as long as two facts hold.

`Served`: while a thread is blocked, everything in stock is spoken for, by threads that are
on their way to take it or to wake somebody. `Announced`: while a flag is up and a thread is
blocked, some thread still has to wake them all. Both are kept by a thread that walks on, if
the weight of its point makes up for what it changes.
-/

namespace Waiting

variable {ι π : Type}

/-- Changing one member changes a sum over the family by the difference. -/
theorem sum_update {M : Type*} [AddCommMonoid M] [Fintype ι] [DecidableEq ι] (weight : π → M)
    (points : ι → π) (id : ι) (next : π) :
    (∑ other, weight (Function.update points id next other)) + weight (points id) =
      (∑ other, weight (points other)) + weight next := by
  have before := Finset.add_sum_erase Finset.univ (fun other => weight (points other))
    (Finset.mem_univ id)
  have after := Finset.add_sum_erase Finset.univ
    (fun other => weight (Function.update points id next other)) (Finset.mem_univ id)
  have rest : ∑ other ∈ Finset.univ.erase id, weight (Function.update points id next other) =
      ∑ other ∈ Finset.univ.erase id, weight (points other) :=
    Finset.sum_congr rfl (fun other member => by
      rw [Function.update_of_ne (Finset.ne_of_mem_erase member)])
  rw [← before, ← after, rest, Function.update_self, add_comm (weight next),
    add_comm (weight (points id)), add_right_comm]

/-- The same for a sum over the members of two families. -/
theorem sum_update_pair {M : Type*} {ρ : Type} [AddCommMonoid M] [Fintype ι] [DecidableEq ι]
    (weight : π → ρ → M) (points : ι → π) (calls : ι → ρ) (id : ι) (next : π) (call : ρ) :
    (∑ other, weight (Function.update points id next other) (Function.update calls id call other)) +
        weight (points id) (calls id) =
      (∑ other, weight (points other) (calls other)) + weight next call := by
  have pairs (other : ι) :
      (Function.update points id next other, Function.update calls id call other) =
        Function.update (fun other => (points other, calls other)) id (next, call) other := by
    by_cases here : other = id
    · subst here
      rw [Function.update_self, Function.update_self, Function.update_self]
    · rw [Function.update_of_ne here, Function.update_of_ne here, Function.update_of_ne here]
  have sum := sum_update (fun pair : π × ρ => weight pair.1 pair.2)
    (fun other => (points other, calls other)) id (next, call)
  simp only [← pairs] at sum
  exact sum

/-- What holds of some member after one was changed held of some member before. -/
theorem exists_of_exists_update [DecidableEq ι] {p : π → Prop} {points : ι → π} {id : ι}
    {next : π} (back : p next → p (points id))
    (some : ∃ other, p (Function.update points id next other)) : ∃ other, p (points other) := by
  obtain here | ⟨other, _, holds⟩ :=
    (Function.exists_update_iff points (fun _ point => p point)).mp some
  · exact ⟨id, back here⟩
  · exact ⟨other, holds⟩

/-- What holds of some member still does after one was changed. -/
theorem exists_update_of_exists [DecidableEq ι] {p : π → Prop} {points : ι → π} {id : ι}
    {next : π} (kept : p (points id) → p next) (some : ∃ other, p (points other)) :
    ∃ other, p (Function.update points id next other) := by
  obtain ⟨other, holds⟩ := some
  refine (Function.exists_update_iff points (fun _ point => p point)).mpr ?_
  by_cases here : other = id
  · exact Or.inl (kept (here ▸ holds))
  · exact Or.inr ⟨other, here, holds⟩

/-! ### Units in stock -/

/-- While a thread is blocked, the units in stock are spoken for. -/
def Served [Fintype ι] (blocked : π → Prop) (weight : π → Nat) (stock : Nat) (points : ι → π) :
    Prop :=
  (∃ id, blocked (points id)) → stock ≤ ∑ id, weight (points id)

section Served

variable [Fintype ι] {blocked : π → Prop} {weight : π → Nat} {stock stock' : Nat}
  {points : ι → π} {id : ι} {next : π}

theorem served_of_empty (points : ι → π) : Served blocked weight 0 points := fun _ => Nat.zero_le _

theorem served_of_none (none : ∀ id, ¬blocked (points id)) : Served blocked weight stock points :=
  fun ⟨id, waits⟩ => absurd waits (none id)

theorem Served.move [DecidableEq ι] (served : Served blocked weight stock points)
    (free : ¬blocked next)
    (weighs : stock' + weight (points id) ≤ stock + weight next) :
    Served blocked weight stock' (Function.update points id next) := by
  intro some
  have before := served (exists_of_exists_update (fun waits => absurd waits free) some)
  have sum := sum_update weight points id next
  omega

/-- All threads may walk on at once, if none of them blocks or loses weight. -/
theorem Served.map (served : Served blocked weight stock points) (change : π → π)
    (frees : ∀ point, blocked (change point) → blocked point)
    (weighs : ∀ point, weight point ≤ weight (change point)) :
    Served blocked weight stock (fun id => change (points id)) := by
  rintro ⟨id, waits⟩
  exact (served ⟨id, frees _ waits⟩).trans (Finset.sum_le_sum (fun id _ => weighs (points id)))

end Served

/-! ### A flag for everybody -/

/-- While the flag is up and a thread is blocked, some thread has yet to wake them all. -/
def Announced (blocked announces : π → Prop) (raised : Prop) (points : ι → π) : Prop :=
  raised → (∃ id, blocked (points id)) → ∃ id, announces (points id)

section Announced

variable {blocked announces : π → Prop} {raised : Prop} {points : ι → π} {id : ι} {next : π}

theorem announced_of_none (none : ∀ id, ¬blocked (points id)) :
    Announced blocked announces raised points :=
  fun _ ⟨id, waits⟩ => absurd waits (none id)

theorem announced_of_announces [DecidableEq ι] (points : ι → π) (id : ι)
    (announcing : announces next) :
    Announced blocked announces raised (Function.update points id next) :=
  fun _ _ => ⟨id, by rw [Function.update_self]; exact announcing⟩

theorem Announced.move [DecidableEq ι] (announced : Announced blocked announces raised points)
    (free : ¬blocked next) (kept : announces (points id) → announces next) :
    Announced blocked announces raised (Function.update points id next) := by
  intro up some
  have before := announced up (exists_of_exists_update (fun waits => absurd waits free) some)
  exact exists_update_of_exists kept before

theorem Announced.map (announced : Announced blocked announces raised points) (change : π → π)
    (frees : ∀ point, blocked (change point) → blocked point)
    (kept : ∀ point, announces point → announces (change point)) :
    Announced blocked announces raised (fun id => change (points id)) := by
  rintro up ⟨id, waits⟩
  obtain ⟨other, announcing⟩ := announced up ⟨id, frees _ waits⟩
  exact ⟨other, kept _ announcing⟩

end Announced

end Waiting
