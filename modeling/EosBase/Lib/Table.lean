import Mathlib.Data.List.AList
import Mathlib.Algebra.Order.Ring.Nat

/-!
# Finite tables

A hash map of the modelled programs is a Mathlib association list: at most one
value for each key is part of the type.  The order in which a hash map is
iterated is not part of its meaning, so a function that iterates one takes the
order as an argument of its own.
-/

namespace EosBase

open List

universe u v

/-- A finite map with at most one value for each key. -/
def Table (Key : Type u) (Value : Type v) : Type max u v :=
  AList fun _ : Key => Value

namespace Table

variable {Key : Type u} {Value : Type v}

instance [DecidableEq Key] [DecidableEq Value] : DecidableEq (Table Key Value) :=
  fun first second => decidable_of_iff (AList.entries first = AList.entries second)
    AList.ext_iff.symm

def empty : Table Key Value := (∅ : AList fun _ : Key => Value)

def entries (table : Table Key Value) : List (Σ _ : Key, Value) :=
  AList.entries table

def keys (table : Table Key Value) : List Key :=
  AList.keys table

def count (table : Table Key Value) (predicate : Key → Value → Bool) : Nat :=
  table.entries.countP fun entry => predicate entry.1 entry.2

def sum (table : Table Key Value) (weight : Key → Value → Nat) : Nat :=
  (table.entries.map fun entry => weight entry.1 entry.2).sum

theorem count_eq_sum {table : Table Key Value} {predicate} :
    table.count predicate = table.sum fun key value => if predicate key value then 1 else 0 := by
  rw [count, sum]
  induction table.entries with
  | nil => rfl
  | cons entry entries ih =>
    rw [countP_cons, map_cons, sum_cons, ih, Nat.add_comm]

variable [DecidableEq Key]

def get? (table : Table Key Value) (key : Key) : Option Value :=
  AList.lookup key table

def insert (table : Table Key Value) (key : Key) (value : Value) : Table Key Value :=
  AList.insert key value table

def erase (table : Table Key Value) (key : Key) : Table Key Value :=
  AList.erase key table

def contains (table : Table Key Value) (key : Key) : Bool :=
  (table.get? key).isSome

/-- Remove a key that may be absent altogether. -/
def eraseOf (table : Table Key Value) : Option Key → Table Key Value
  | some key => table.erase key
  | none => table

/-- Update the value of a key in place; nothing happens to an absent key. -/
def modify (table : Table Key Value) (key : Key) (f : Value → Value) : Table Key Value :=
  match table.get? key with
  | some value => table.insert key (f value)
  | none => table

/-- Does some entry satisfy the predicate?  The answer does not depend on the
order of the entries. -/
def any (table : Table Key Value) (predicate : Key → Value → Bool) : Bool :=
  table.entries.any fun entry => predicate entry.1 entry.2

@[simp, grind =]
theorem get?_empty {key} : (empty : Table Key Value).get? key = none :=
  AList.lookup_empty key

variable {key : Key} {value : Value} {other : Key}

section

variable (table : Table Key Value)

include table

@[grind =]
theorem get?_insert (key other : Key) (value : Value) : (table.insert key value).get? other =
      if other = key then some value else table.get? other := by
  split
  next equality =>
    subst equality
    exact AList.lookup_insert table
  next different => exact AList.lookup_insert_ne different

@[simp]
theorem get?_insert_self (key : Key) (value : Value) :
    (table.insert key value).get? key = some value :=
  AList.lookup_insert table

theorem get?_insert_of_ne (different : other ≠ key) :
    (table.insert key value).get? other = table.get? other :=
  AList.lookup_insert_ne different

theorem insert_insert (key : Key) {second first} :
    (table.insert key first).insert key second = table.insert key second :=
  AList.insert_insert table

@[grind =]
theorem get?_erase (key other : Key) : (table.erase key).get? other =
      if other = key then none else table.get? other := by
  split
  next equality =>
    subst equality
    exact AList.lookup_erase other table
  next different => exact AList.lookup_erase_ne different

@[simp]
theorem get?_erase_self (key : Key) : (table.erase key).get? key = none :=
  AList.lookup_erase key table

theorem get?_eraseOf (erased : Option Key) (other : Key) : (table.eraseOf erased).get? other =
      if erased = some other then none else table.get? other := by
  cases erased with
  | none => rfl
  | some key => simp [eraseOf, get?_erase, eq_comm]

@[grind =]
theorem get?_modify (key other : Key) (f : Value → Value) : (table.modify key f).get? other =
      if other = key then (table.get? other).map f else table.get? other := by
  unfold modify
  cases found : table.get? key with
  | none =>
    by_cases equality : other = key
    · subst equality
      simp [found]
    · simp [equality]
  | some value =>
    simp only [get?_insert]
    by_cases equality : other = key
    · subst equality
      simp [found]
    · simp [equality]

theorem mem_entries_iff (key : Key) (value : Value) :
    (⟨key, value⟩ : Σ _ : Key, Value) ∈ table.entries ↔ table.get? key = some value :=
  AList.mem_lookup_iff.symm

theorem mem_keys_iff : key ∈ table.keys ↔ ∃ value, table.get? key = some value := by
  rw [← Option.isSome_iff_exists]
  exact AList.lookup_isSome.symm

theorem any_eq_true_iff (predicate : Key → Value → Bool) : table.any predicate = true ↔
      ∃ key value, table.get? key = some value ∧ predicate key value = true := by
  simp only [any, any_eq_true, Sigma.exists, mem_entries_iff]

section

variable (absent : table.get? key = none)

include absent

theorem entries_insert : (table.insert key value).entries = ⟨key, value⟩ :: table.entries :=
  AList.entries_insert_of_notMem (AList.lookup_eq_none.mp absent)

theorem erase_insert : (table.insert key value).erase key = table := by
  apply AList.ext
  change kerase key (table.insert key value).entries = table.entries
  rw [table.entries_insert absent]
  exact kerase_cons_eq rfl

theorem sum_insert {weight} :
    (table.insert key value).sum weight = table.sum weight + weight key value := by
  rw [sum, table.entries_insert absent, map_cons, sum_cons, Nat.add_comm, sum]

end

theorem sum_erase (weight : Key → Value → Nat) (found : table.get? key = some value) :
    (table.erase key).sum weight + weight key value = table.sum weight := by
  have member : key ∈ table.entries.keys := AList.lookup_isSome.mp (Option.isSome_of_mem found)
  obtain ⟨kept, front, back, _, split, erased⟩ := exists_of_kerase member
  have same : kept = value := by
    have entry : (⟨key, kept⟩ : Σ _ : Key, Value) ∈ table.entries := by
      rw [split]
      exact mem_append_right _ mem_cons_self
    exact Option.some.inj (((table.mem_entries_iff key kept).mp entry).symm.trans found)
  subst same
  change ((kerase key table.entries).map _).sum + _ = (table.entries.map _).sum
  rw [erased]
  conv_rhs => rw [split]
  simp only [map_append, map_cons, sum_append, sum_cons]
  omega

/-- Replacing a value moves the total by the difference. -/
theorem sum_insert_of_some {weight old} (found : table.get? key = some old) :
    (table.insert key value).sum weight + weight key old = table.sum weight + weight key value := by
  have replaced : (table.insert key value).sum weight =
      weight key value + (table.erase key).sum weight := by
    have entries : (table.insert key value).entries = ⟨key, value⟩ :: (table.erase key).entries :=
      AList.entries_insert
    rw [sum, entries, map_cons, sum_cons, sum]
  have rest := table.sum_erase weight found
  omega

theorem sum_eq_zero_iff {weight} :
    table.sum weight = 0 ↔ ∀ key value, table.get? key = some value → weight key value = 0 := by
  simp only [sum, List.sum_eq_zero_iff_forall_eq_nat, forall_mem_map, Sigma.forall, mem_entries_iff]

theorem count_erase (predicate : Key → Value → Bool) (found : table.get? key = some value) :
    (table.erase key).count predicate + (if predicate key value then 1 else 0) =
      table.count predicate := by
  rw [count_eq_sum, count_eq_sum]
  exact table.sum_erase _ found

theorem count_eq_zero_iff (predicate : Key → Value → Bool) : table.count predicate = 0 ↔
      ∀ key value, table.get? key = some value → predicate key value = false := by
  simp only [count, countP_eq_zero, Sigma.forall, mem_entries_iff, Bool.not_eq_true]

end

variable {table : Table Key Value} {found : Value}

theorem of_insert (present : (table.insert key value).get? other = some found) :
    other = key ∧ found = value ∨ other ≠ key ∧ table.get? other = some found := by
  rw [get?_insert] at present
  split at present
  next same => exact .inl ⟨same, (Option.some.inj present).symm⟩
  next different => exact .inr ⟨different, present⟩

theorem of_erase (present : (table.erase key).get? other = some found) :
    other ≠ key ∧ table.get? other = some found := by
  rw [get?_erase] at present
  split at present
  · cases present
  next different => exact ⟨different, present⟩

section IndexMap

/-- Add an entry behind the others; a key that is there keeps its place.  This is how
an `IndexMap` inserts, and its `shift_remove` is `erase`. -/
def insertLast (table : Table Key Value) (key : Key) (value : Value) : Table Key Value :=
  if present : key ∈ table.keys then
    AList.replace key value table
  else
    ⟨table.entries ++ [⟨key, value⟩], by
      change (List.keys _).Nodup
      rw [keys_append]
      refine nodup_append.mpr ⟨AList.nodupKeys table, nodup_singleton _, ?_⟩
      rintro old member _ new rfl
      have same : old = key := mem_singleton.mp new
      exact present (same ▸ member)⟩

theorem entries_insertLast (absent : table.get? key = none) :
    (table.insertLast key value).entries = table.entries ++ [⟨key, value⟩] := by
  have missing : key ∉ table.keys := by
    rw [mem_keys_iff, absent]
    rintro ⟨value, found⟩
    cases found
  exact congrArg entries (dif_neg missing)

end IndexMap

instance decidableForall (table : Table Key Value) (predicate : Key → Value → Prop)
    [∀ key value, Decidable (predicate key value)] :
    Decidable (∀ key value, table.get? key = some value → predicate key value) :=
  decidable_of_iff (∀ entry ∈ table.entries, predicate entry.1 entry.2) (by
    constructor
    · intro all key value found
      exact all ⟨key, value⟩ ((table.mem_entries_iff key value).mpr found)
    · rintro all ⟨key, value⟩ membership
      exact all key value ((table.mem_entries_iff key value).mp membership))

end Table

end EosBase
