import EosBase.Lib.Table
import EosBase.Redox.Syscall

/-!
# Handles of a scheme

`HandleMap` of `scheme-utils/src/lib.rs`.  The next handle gets a number that is
not in use; numbers that are in use are passed over.  Numbers are not bounded
here, where the source wraps around, so that none is given out again;
`Wrapping.unbounded_simulates` says that this is the source's table until it does.
-/

namespace EosBase.Redox

open Table

variable {Value : Type}

namespace HandleMap

/-- The loop of `insert`: at most so many numbers are passed over. -/
def advance (handles : Table Nat Value) : (rounds candidate : Nat) → Nat
  | 0, candidate => candidate
  | rounds + 1, candidate =>
    if handles.contains candidate then advance handles rounds (candidate + 1) else candidate

theorem le_advance {handles : Table Nat Value} (candidate : Nat) {rounds} :
    candidate ≤ advance handles rounds candidate := by
  induction rounds generalizing candidate with
  | zero => exact le_rfl
  | succ rounds ih =>
    rw [advance]
    split
    · exact Nat.le_of_succ_le (ih (candidate + 1))
    · exact le_rfl

end HandleMap

structure HandleMap (Value : Type) where
  handles : Table Nat Value
  nextId : Nat
  below : ∀ id, nextId ≤ id → handles.get? id = none

namespace HandleMap

def new : HandleMap Value := ⟨.empty, 1, fun _ _ => rfl⟩

def get? (this : HandleMap Value) (id : Nat) : Option Value := this.handles.get? id

def get (this : HandleMap Value) (id : Nat) : Result Value := okOr .EBADF (this.get? id)

/-- `insert`, which returns the number of the handle. -/
def insert (this : HandleMap Value) (handle : Value) : HandleMap Value × Nat :=
  (⟨this.handles.insert this.nextId handle,
    advance this.handles this.handles.keys.length (this.nextId + 1), by
      intro id above
      have later := Nat.le_trans (le_advance (this.nextId + 1)) above
      rw [get?_insert_of_ne _ (Nat.ne_of_gt later)]
      exact this.below id (Nat.le_of_succ_le later)⟩, this.nextId)

def remove (this : HandleMap Value) (id : Nat) : HandleMap Value × Option Value :=
  (⟨this.handles.erase id, this.nextId, by
    intro other above
    rw [get?_erase]
    split
    · rfl
    · exact this.below other above⟩, this.get? id)

/-- What is written through `get_mut`. -/
def set (this : HandleMap Value) (id : Nat) (handle : Value) : HandleMap Value :=
  if old : id < this.nextId then
    ⟨this.handles.insert id handle, this.nextId, by
      intro other above
      rw [get?_insert_of_ne _ (old.trans_le above).ne']
      exact this.below other above⟩
  else this

def count (this : HandleMap Value) (predicate : Value → Bool) : Nat :=
  this.handles.count fun _ handle => predicate handle

variable {this : HandleMap Value} {handle : Value} {id other : Nat}

@[grind =]
theorem get?_insert : (this.insert handle).1.get? other =
    if other = this.nextId then some handle else this.get? other :=
  Table.get?_insert _ _ _ _

@[grind =]
theorem get?_remove :
    (this.remove id).1.get? other = if other = id then none else this.get? other :=
  get?_erase _ _ _

theorem get?_next : this.get? this.nextId = none := this.below _ le_rfl

theorem lt_nextId (found : this.get? id = some handle) : id < this.nextId := by
  by_contra late
  cases found.symm.trans (this.below id (Nat.le_of_not_lt late))

theorem nextId_insert : this.nextId < (this.insert handle).1.nextId :=
  le_advance (this.nextId + 1)

/-- No number above the last one is in use, so that none is passed over. -/
theorem nextId_insert_eq : (this.insert handle).1.nextId = this.nextId + 1 := by
  show advance this.handles this.handles.keys.length _ = _
  cases this.handles.keys.length with
  | zero => rfl
  | succ rounds =>
    rw [advance, contains, this.below _ (Nat.le_succ _)]
    rfl

section

variable (predicate : Value → Bool)

include predicate

theorem count_insert : (this.insert handle).1.count predicate =
    this.count predicate + if predicate handle then 1 else 0 := by
  rw [count, count, count_eq_sum, count_eq_sum]
  exact sum_insert _ get?_next

theorem count_remove (found : this.get? id = some handle) :
    (this.remove id).1.count predicate + (if predicate handle then 1 else 0) =
      this.count predicate :=
  count_erase _ _ found

theorem count_eq_zero_iff : this.count predicate = 0 ↔
    ∀ id handle, this.get? id = some handle → predicate handle = false :=
  Table.count_eq_zero_iff _ _

end

theorem get_ok (found : this.get id = .ok handle) : this.get? id = some handle :=
  okOr_ok found

end HandleMap

end EosBase.Redox
