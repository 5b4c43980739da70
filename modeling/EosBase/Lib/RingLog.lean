import Mathlib.Algebra.Order.Ring.Nat
import Mathlib.Data.List.Basic

/-!
# Rings

A producer writes entries into the slots of a ring, one after the other and around
again.  What it has written altogether is a log, and a ring of `size` slots holds the
last `size` entries of it.

A consumer that is not told how far the producer has come may be shown it by a bit in
each entry that changes from lap to lap: an entry of the lap before, or a slot that was
never written, has the other bit.
-/

namespace EosBase

open List Nat

universe u

/-- The bit of the lap in which a position of the log lies; it is set in the first lap. -/
def phase (size position : Nat) : Bool :=
  position / size % 2 == 0

variable {size position : Nat}

theorem phase_zero : phase size 0 = true := by
  rw [phase, Nat.zero_div]
  rfl

theorem even_succ {lap} : ((lap + 1) % 2 == 0) = !(lap % 2 == 0) := by
  rcases mod_two_eq_zero_or_one lap with even | odd
  · rw [add_mod, even]
    rfl
  · rw [add_mod, odd]
    rfl

theorem phase_add_size (nonempty : 0 < size) :
    phase size (position + size) = !phase size position := by
  rw [phase, phase, add_div_right _ nonempty, even_succ]

/-- The bit does not change inside a lap. -/
theorem phase_succ (inside : (position + 1) % size ≠ 0) :
    phase size (position + 1) = phase size position := by
  rw [phase, phase, Nat.succ_div, if_neg (mt Nat.mod_eq_zero_of_dvd inside)]
  rfl

/-- The bit changes from the last position of a lap to the next one. -/
theorem phase_succ_of_mod (start : (position + 1) % size = 0) :
    phase size (position + 1) = !phase size position := by
  rw [phase, phase, Nat.succ_div, if_pos (Nat.dvd_of_mod_eq_zero start), even_succ]

theorem succ_mod (inside : (position + 1) % size ≠ 0) :
    (position + 1) % size = position % size + 1 := by
  have lap : (position + 1) / size = position / size := by
    rw [Nat.succ_div, if_neg (mt Nat.mod_eq_zero_of_dvd inside)]
    rfl
  have before := Nat.div_add_mod position size
  have after := Nat.div_add_mod (position + 1) size
  rw [lap] at after
  omega

/-- Positions less than a lap apart have different slots. -/
theorem mod_ne_of_lt {later} (before : position < later)
    (near : later < position + size) : later % size ≠ position % size := by
  intro same
  have multiple := sub_mod_eq_zero_of_mod_eq same
  rw [mod_eq_of_lt (by omega)] at multiple
  omega

variable {Entry : Type u} {entry : Entry} {log : List Entry}

/-- What holds of every entry of a log still does when the entry that is added has it. -/
theorem forall_getElem?_concat {property : Nat → Entry → Prop}
    (old : ∀ (position : Nat) found, log[position]? = some found → property position found)
    (new : property log.length entry) (position : Nat) {found}
    (lookup : (log ++ [entry])[position]? = some found) : property position found := by
  rw [getElem?_append] at lookup
  split at lookup
  · exact old position found lookup
  rw [getElem?_singleton] at lookup
  split at lookup
  · cases lookup
    have same : position = log.length := by omega
    rw [same]
    exact new
  · cases lookup

/-- The slots of a ring hold the last entries of a log, and are blank before the first
lap has come to them. -/
structure RingLog {Entry : Type u} (size : Nat) (blank : Nat → Entry) (log : List Entry)
    (slot : Nat → Option Entry) : Prop where
  recent : ∀ position entry, log[position]? = some entry → log.length ≤ position + size →
    slot (position % size) = some entry
  fresh : ∀ index, log.length ≤ index → index < size → slot index = some (blank index)

namespace RingLog

variable {blank : Nat → Entry} {slot later : Nat → Option Entry} {slots : List Entry} {index : Nat}

theorem start (blanks : ∀ index < size, slot index = some (blank index)) :
    RingLog size blank [] slot :=
  ⟨fun _ _ found => (by cases found), fun index _ small => blanks index small⟩

/-- The next entry is written to the slot after the last one. -/
theorem push (ring : RingLog size blank log slot) (nonempty : 0 < size)
    (written : later (log.length % size) = some entry)
    (kept : ∀ index < size, index ≠ log.length % size → later index = slot index) :
    RingLog size blank (log ++ [entry]) later := by
  constructor
  · refine forall_getElem?_concat ?_ fun _ => written
    intro position found lookup near
    rw [length_append, length_singleton] at near
    have before := (List.getElem?_eq_some_iff.mp lookup).1
    rw [kept _ (mod_lt _ nonempty) (mod_ne_of_lt before (by omega)).symm]
    exact ring.recent position found lookup (by omega)
  · intro index unwritten small
    rw [length_append, length_singleton] at unwritten
    have other : index ≠ log.length % size := by
      rw [mod_eq_of_lt (by omega)]
      omega
    rw [kept _ small other]
    exact ring.fresh index (by omega) small

theorem replicate :
    RingLog size (fun _ => entry) [] fun index => (List.replicate size entry)[index]? :=
  start fun _ => List.getElem?_replicate_of_lt

/-- The next entry is stored in an array. -/
theorem set (ring : RingLog size blank log fun index => slots[index]?) (nonempty : 0 < size)
    (length : slots.length = size) (next : index = log.length % size) :
    RingLog size blank (log ++ [entry]) fun other => (slots.set index entry)[other]? := by
  subst next length
  apply ring.push nonempty
  · exact List.getElem?_set_self (mod_lt _ nonempty)
  · intro other _ different
    exact List.getElem?_set_ne different.symm

/-- A consumer that is at most a lap behind sees by the bit of the slot in front of it
whether the log goes on there. -/
theorem read {bit : Entry → Bool} (ring : RingLog size blank log slot)
    (unset : ∀ index, bit (blank index) = false)
    (bits : ∀ position entry, log[position]? = some entry → bit entry = phase size position)
    (nonempty : 0 < size) (behind : position ≤ log.length) (near : log.length ≤ position + size) :
    ∃ entry, slot (position % size) = some entry ∧
      (bit entry = phase size position ↔ position < log.length) ∧
      (position < log.length → log[position]? = some entry) := by
  rcases lt_or_eq_of_le behind with before | same
  · have found := getElem?_eq_getElem before
    exact ⟨_, ring.recent position _ found near,
      iff_of_true (bits position _ found) before, fun _ => found⟩
  rcases lt_or_ge position size with first | later
  · refine ⟨blank position, ?_, ?_, ?_⟩
    · rw [mod_eq_of_lt first]
      exact ring.fresh position (by omega) first
    · rw [unset, phase, div_eq_of_lt first]
      exact iff_of_false (by decide) (by omega)
    · omega
  · -- the slot holds the entry of the lap before
    obtain ⟨old, rfl⟩ := Nat.exists_eq_add_of_le later
    have inside : old < log.length := by omega
    have found := getElem?_eq_getElem inside
    refine ⟨log[old], ?_, ?_, ?_⟩
    · rw [add_mod_left]
      exact ring.recent old _ found (by omega)
    · rw [bits old _ found, add_comm, phase_add_size nonempty]
      exact iff_of_false (by simp) (by omega)
    · omega

end RingLog

end EosBase
