import Mathlib.Data.List.Perm.Basic
import Mathlib.Data.List.Nodup
import Mathlib.Order.Defs.Unbundled
import Mathlib.Order.RelClasses

/-!
# Finite maps kept sorted by a comparator

An `OrderedMap` is the sequence of entries that a comparator-ordered map presents
to its iterators. The strict order of the keys is a field, so an operation cannot
return a map with a repeated or misplaced key, and its clients never carry a
separate well-formedness premise.

Lookups are characterised by membership in the entry list. Insertion and removal
also come with a permutation of the entries, which is the convenient form when a
second structure indexes the same elements in another order.
-/

/-- The entries of a map in iteration order, strictly increasing for `lt`. -/
structure OrderedMap (K V : Type*) (lt : K → K → Prop) where
  entries : List (K × V)
  sorted : entries.Pairwise (fun a b => lt a.1 b.1)

namespace OrderedMap

variable {K V : Type*} {lt : K → K → Prop} {e : K × V}

def empty : OrderedMap K V lt := ⟨[], .nil⟩

instance : EmptyCollection (OrderedMap K V lt) := ⟨empty⟩

@[ext] theorem ext {m m' : OrderedMap K V lt} (same : m.entries = m'.entries) : m = m' := by
  cases m
  cases m'
  simpa using same

instance [DecidableEq K] [DecidableEq V] : DecidableEq (OrderedMap K V lt) := fun m m' =>
  decidable_of_iff (m.entries = m'.entries) ⟨ext, fun same => same ▸ rfl⟩

def size (m : OrderedMap K V lt) : Nat := m.entries.length

def isEmpty (m : OrderedMap K V lt) : Bool := m.entries.isEmpty

/-- The entry at the beginning of the iteration order. -/
def front? (m : OrderedMap K V lt) : Option (K × V) := m.entries.head?

def find? [DecidableEq K] (m : OrderedMap K V lt) (k : K) : Option V :=
  (m.entries.find? (fun e => decide (e.1 = k))).map Prod.snd

def contains [DecidableEq K] (m : OrderedMap K V lt) (k : K) : Bool := (m.find? k).isSome

/-- Remove the entry of a key, if there is one. -/
def erase [DecidableEq K] (m : OrderedMap K V lt) (k : K) : OrderedMap K V lt :=
  ⟨m.entries.filter (fun e => decide (e.1 ≠ k)), m.sorted.filter _⟩

private def setValue [DecidableEq K] (k : K) (f : V → V) (e : K × V) : K × V :=
  if e.1 = k then (e.1, f e.2) else e

private theorem setValue_fst [DecidableEq K] (k : K) (f : V → V) (e : K × V) :
    (setValue k f e).1 = e.1 := by
  unfold setValue
  split <;> rfl

/-- Assign through an iterator: change the value of a key that is present. -/
def update [DecidableEq K] (m : OrderedMap K V lt) (k : K) (f : V → V) : OrderedMap K V lt where
  entries := m.entries.map (setValue k f)
  sorted := by
    rw [List.pairwise_map]
    simpa only [setValue_fst] using m.sorted

/-- Change every value. -/
def mapValues (m : OrderedMap K V lt) (f : V → V) : OrderedMap K V lt where
  entries := m.entries.map (fun e => (e.1, f e.2))
  sorted := by
    rw [List.pairwise_map]
    exact m.sorted

theorem mapValues_of_fixed (m : OrderedMap K V lt) {f : V → V}
    (fixed : ∀ e ∈ m.entries, f e.2 = e.2) : m.mapValues f = m := by
  apply ext
  have same : ∀ e ∈ m.entries, (e.1, f e.2) = id e := by
    intro e member
    rw [fixed e member]
    rfl
  exact (List.map_congr_left same).trans (List.map_id _)

/-- Insertion into a sorted entry list. The value stored is computed from the
value already present, so the same function emplaces and assigns. -/
def upsertEntries (lt : K → K → Prop) [DecidableRel lt] (k : K) (f : Option V → V) :
    List (K × V) → List (K × V)
  | [] => [(k, f none)]
  | e :: rest =>
      if lt k e.1 then (k, f none) :: e :: rest
      else if lt e.1 k then e :: upsertEntries lt k f rest
      else (k, f (some e.2)) :: rest

theorem fst_eq_or_mem_of_mem_upsertEntries [DecidableRel lt] {k : K} {f : Option V → V}
    {entries : List (K × V)} (member : e ∈ upsertEntries lt k f entries) :
    e.1 = k ∨ e ∈ entries := by
  induction entries with
  | nil => exact Or.inl (by rw [List.mem_singleton.mp member])
  | cons head rest ih =>
      simp only [upsertEntries] at member
      split at member
      · rcases List.mem_cons.mp member with rfl | old
        · exact Or.inl rfl
        · exact Or.inr old
      · split at member
        · rcases List.mem_cons.mp member with rfl | inner
          · exact Or.inr List.mem_cons_self
          · exact (ih inner).imp id (List.mem_cons_of_mem _)
        · rcases List.mem_cons.mp member with rfl | old
          · exact Or.inl rfl
          · exact Or.inr (List.mem_cons_of_mem _ old)

section Order

variable [IsStrictTotalOrder K lt]

private theorem eq_of_not_lt {a b : K} (hab : ¬lt a b) (hba : ¬lt b a) : a = b :=
  ((trichotomous_of lt a b).resolve_left hab).resolve_right hba

theorem pairwise_upsertEntries [DecidableRel lt] (k : K) (f : Option V → V)
    {entries : List (K × V)} (sorted : entries.Pairwise (fun a b => lt a.1 b.1)) :
    (upsertEntries lt k f entries).Pairwise (fun a b => lt a.1 b.1) := by
  induction entries with
  | nil => exact List.pairwise_singleton _ _
  | cons head rest ih =>
      obtain ⟨headLt, restSorted⟩ := List.pairwise_cons.mp sorted
      simp only [upsertEntries]
      split
      · rename_i before
        refine List.pairwise_cons.mpr ⟨?_, sorted⟩
        intro e member
        rcases List.mem_cons.mp member with rfl | inRest
        · exact before
        · exact trans_of lt before (headLt e inRest)
      · split
        · rename_i after
          refine List.pairwise_cons.mpr ⟨?_, ih restSorted⟩
          intro e member
          rcases fst_eq_or_mem_of_mem_upsertEntries member with same | inRest
          · rw [same]
            exact after
          · exact headLt e inRest
        · rename_i notBefore notAfter
          have same : k = head.1 := eq_of_not_lt notBefore notAfter
          refine List.pairwise_cons.mpr ⟨?_, restSorted⟩
          intro e member
          rw [same]
          exact headLt e member

/-- Emplace a key and assign its value: `f none` for a new key, and `f (some v)`
over an old value `v`. -/
def upsert [DecidableRel lt] (m : OrderedMap K V lt) (k : K) (f : Option V → V) :
    OrderedMap K V lt :=
  ⟨upsertEntries lt k f m.entries, pairwise_upsertEntries k f m.sorted⟩

/-- A change of all values passes through an insertion that it commutes with. -/
theorem mapValues_upsert [DecidableRel lt] (m : OrderedMap K V lt) (k : K) {f f' : Option V → V}
    {g : V → V} (commutes : ∀ old, g (f old) = f' (old.map g)) :
    (m.upsert k f).mapValues g = (m.mapValues g).upsert k f' := by
  apply ext
  simp only [mapValues, upsert]
  induction m.entries with
  | nil => simp [upsertEntries, commutes]
  | cons head rest ih =>
      simp only [upsertEntries, List.map_cons]
      split
      · simp [commutes]
      · split
        · simp [ih]
        · simp [commutes]

theorem keys_nodup (m : OrderedMap K V lt) : (m.entries.map Prod.fst).Nodup := by
  rw [List.Nodup, List.pairwise_map]
  refine m.sorted.imp ?_
  intro a b less same
  rw [same] at less
  exact irrefl_of lt _ less

theorem entries_nodup (m : OrderedMap K V lt) : m.entries.Nodup := m.keys_nodup.of_map _

/-- A key has at most one value. -/
theorem value_unique (m : OrderedMap K V lt) {k : K} {v v' : V} (first : (k, v) ∈ m.entries)
    (second : (k, v') ∈ m.entries) : v = v' := by
  have same := List.inj_on_of_nodup_map m.keys_nodup first second rfl
  exact congrArg Prod.snd same

end Order

theorem mem_of_front? {m : OrderedMap K V lt} (front : m.front? = some e) :
    e ∈ m.entries := List.mem_of_head? front

@[simp] theorem isEmpty_iff (m : OrderedMap K V lt) : m.isEmpty = true ↔ m.entries = [] :=
  List.isEmpty_iff

/-- The first entry precedes every other entry. -/
theorem lt_of_front? {m : OrderedMap K V lt} {k : K} {v : V} (front : m.front? = some (k, v))
    (member : e ∈ m.entries) : e = (k, v) ∨ lt k e.1 := by
  have sorted := m.sorted
  obtain ⟨rest, shape⟩ := List.head?_eq_some_iff.mp front
  rw [shape] at member sorted
  rcases List.mem_cons.mp member with same | inRest
  · exact Or.inl same
  · exact Or.inr ((List.pairwise_cons.mp sorted).1 e inRest)

section Lookup

variable [DecidableEq K] {k : K} {e : K × V}

theorem mem_entries_erase (m : OrderedMap K V lt) :
    e ∈ (m.erase k).entries ↔ e ∈ m.entries ∧ e.1 ≠ k := by
  simp [erase]

theorem find?_update (m : OrderedMap K V lt) (k : K) (f : V → V) (k' : K) :
    (m.update k f).find? k' = if k' = k then (m.find? k').map f else m.find? k' := by
  have seek : (m.update k f).entries.find? (fun e => decide (e.1 = k')) =
      (m.entries.find? (fun e => decide (e.1 = k'))).map (setValue k f) := by
    simp only [update, List.find?_map, Function.comp_def, setValue_fst]
  simp only [find?, seek, Option.map_map]
  cases search : m.entries.find? (fun e => decide (e.1 = k')) with
  | none => simp
  | some e =>
      have key : e.1 = k' := by simpa using List.find?_some search
      by_cases same : k' = k <;> simp [setValue, key, same]

variable [IsStrictTotalOrder K lt]

/-- Lookup by key is membership in the entry list. -/
theorem find?_eq_some_iff (m : OrderedMap K V lt) {v : V} :
    m.find? k = some v ↔ (k, v) ∈ m.entries := by
  constructor
  · intro found
    obtain ⟨⟨k', v'⟩, located, value⟩ := Option.map_eq_some_iff.mp found
    have key : k' = k := by simpa using List.find?_some located
    have value' : v' = v := value
    rw [← key, ← value']
    exact List.mem_of_find?_eq_some located
  · intro member
    cases search : m.entries.find? (fun e => decide (e.1 = k)) with
    | none =>
        have absent := List.find?_eq_none.mp search (k, v) member
        simp at absent
    | some e =>
        obtain ⟨k', v'⟩ := e
        have key : k' = k := by simpa using List.find?_some search
        subst key
        have value := m.value_unique (List.mem_of_find?_eq_some search) member
        simp [find?, search, value]

theorem find?_eq_none_iff (m : OrderedMap K V lt) :
    m.find? k = none ↔ ∀ v, (k, v) ∉ m.entries := by
  rw [Option.eq_none_iff_forall_ne_some]
  exact forall_congr' (fun v => not_congr m.find?_eq_some_iff)

theorem contains_iff (m : OrderedMap K V lt) :
    m.contains k = true ↔ ∃ v, (k, v) ∈ m.entries := by
  simp only [contains, Option.isSome_iff_exists, find?_eq_some_iff]

/-- Removing a present key removes exactly its one entry. -/
theorem perm_cons_erase (m : OrderedMap K V lt) {v : V} (member : (k, v) ∈ m.entries) :
    m.entries.Perm ((k, v) :: (m.erase k).entries) := by
  rw [List.perm_ext_iff_of_nodup m.entries_nodup
    (List.nodup_cons.mpr ⟨by simp [mem_entries_erase], (m.erase k).entries_nodup⟩)]
  intro e
  rw [List.mem_cons, mem_entries_erase]
  constructor
  · intro old
    by_cases same : e.1 = k
    · subst same
      exact Or.inl (Prod.ext rfl (m.value_unique old member))
    · exact Or.inr ⟨old, same⟩
  · rintro (rfl | ⟨old, _⟩)
    · exact member
    · exact old

theorem find?_erase (m : OrderedMap K V lt) (k k' : K) :
    (m.erase k).find? k' = if k' = k then none else m.find? k' := by
  apply Option.ext
  intro v
  rw [find?_eq_some_iff, mem_entries_erase]
  split
  · simp_all
  · simp_all [find?_eq_some_iff]

variable [DecidableRel lt]

theorem mem_upsertEntries (k : K) (f : Option V → V) {entries : List (K × V)}
    (sorted : entries.Pairwise (fun a b => lt a.1 b.1)) :
    e ∈ upsertEntries lt k f entries ↔
      (e.1 ≠ k ∧ e ∈ entries) ∨
        e = (k, f ((entries.find? (fun e => decide (e.1 = k))).map Prod.snd)) := by
  induction entries with
  | nil => simp [upsertEntries]
  | cons head rest ih =>
      obtain ⟨headLt, restSorted⟩ := List.pairwise_cons.mp sorted
      simp only [upsertEntries]
      split
      · rename_i before
        -- every key is later than `k`, so the lookup fails
        have later : ∀ x ∈ head :: rest, x.1 ≠ k := by
          intro x member same
          rcases List.mem_cons.mp member with rfl | inRest
          · exact irrefl_of lt k (same ▸ before)
          · exact irrefl_of lt k (trans_of lt before (same ▸ headLt x inRest))
        have absent : (head :: rest).find? (fun e => decide (e.1 = k)) = none := by
          rw [List.find?_eq_none]
          intro x member
          simpa using later x member
        rw [absent, List.mem_cons]
        constructor
        · rintro (rfl | old)
          · exact Or.inr rfl
          · exact Or.inl ⟨later e old, old⟩
        · rintro (⟨_, old⟩ | rfl)
          · exact Or.inr old
          · exact Or.inl rfl
      · split
        · rename_i after
          have different : head.1 ≠ k := fun same => irrefl_of lt k (same ▸ after)
          rw [List.mem_cons, ih restSorted, List.find?_cons_of_neg (by simpa using different),
            List.mem_cons]
          constructor
          · rintro (rfl | ⟨other, old⟩ | new)
            · exact Or.inl ⟨different, Or.inl rfl⟩
            · exact Or.inl ⟨other, Or.inr old⟩
            · exact Or.inr new
          · rintro (⟨other, rfl | old⟩ | new)
            · exact Or.inl rfl
            · exact Or.inr (Or.inl ⟨other, old⟩)
            · exact Or.inr (Or.inr new)
        · rename_i notBefore notAfter
          have same : k = head.1 := eq_of_not_lt notBefore notAfter
          rw [List.find?_cons_of_pos (by simpa using same.symm), List.mem_cons, List.mem_cons]
          constructor
          · rintro (new | old)
            · exact Or.inr new
            · refine Or.inl ⟨?_, Or.inr old⟩
              intro again
              have less := headLt e old
              rw [again, ← same] at less
              exact irrefl_of lt k less
          · rintro (⟨other, rfl | old⟩ | new)
            · exact absurd same.symm other
            · exact Or.inr old
            · exact Or.inl new

theorem mem_entries_upsert (m : OrderedMap K V lt) (k : K) (f : Option V → V) :
    e ∈ (m.upsert k f).entries ↔
      (e.1 ≠ k ∧ e ∈ m.entries) ∨ e = (k, f (m.find? k)) :=
  mem_upsertEntries k f m.sorted

theorem find?_upsert (m : OrderedMap K V lt) (k : K) (f : Option V → V) (k' : K) :
    (m.upsert k f).find? k' = if k' = k then some (f (m.find? k)) else m.find? k' := by
  apply Option.ext
  intro v
  rw [find?_eq_some_iff, mem_entries_upsert]
  by_cases same : k' = k
  · simp [same, eq_comm]
  · simp [same, find?_eq_some_iff]

/-- A new key adds exactly one entry. -/
theorem perm_upsert_of_absent (m : OrderedMap K V lt) (f : Option V → V)
    (absent : m.find? k = none) :
    (m.upsert k f).entries.Perm ((k, f none) :: m.entries) := by
  have fresh := m.find?_eq_none_iff.mp absent
  rw [List.perm_ext_iff_of_nodup (m.upsert k f).entries_nodup
    (List.nodup_cons.mpr ⟨fresh _, m.entries_nodup⟩)]
  intro e
  rw [mem_entries_upsert, absent, List.mem_cons]
  constructor
  · rintro (⟨_, old⟩ | new)
    · exact Or.inr old
    · exact Or.inl new
  · rintro (new | old)
    · exact Or.inr new
    · refine Or.inl ⟨?_, old⟩
      rintro rfl
      exact fresh e.2 old

end Lookup

end OrderedMap
