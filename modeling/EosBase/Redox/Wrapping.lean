import EosBase.Lib.Loop
import EosBase.Lib.Transition
import EosBase.Redox.HandleMap
import Mathlib.Data.Finset.Card
import Mathlib.Data.Finset.Range

/-!
# Handle numbers that wrap around

`HandleMap` of `scheme-utils/src/lib.rs` with its 64-bit counter.  `insert` gives out the
number that the insert before it has found, so that a number is free when it is given out.
-/

namespace EosBase.Redox.Wrapping

open Table

structure HandleMap (Value : Type) where
  handles : Table UInt64 Value
  nextId : UInt64

variable {Value : Type}

def search (handles : Table UInt64 Value) (candidate : UInt64) : Turn UInt64 UInt64 :=
  if handles.contains candidate then .again (candidate + 1) else .done candidate

namespace HandleMap

def new : HandleMap Value := ⟨.empty, 1⟩

/-- `insert`, with the number of the handle.  A search that has come around goes on forever. -/
def insert (this : HandleMap Value) (handle : Value) : Option (HandleMap Value × UInt64) :=
  (loop (search this.handles) (2 ^ 64) (this.nextId + 1)).map fun nextId =>
    (⟨this.handles.insert this.nextId handle, nextId⟩, this.nextId)

def remove (this : HandleMap Value) (id : UInt64) : HandleMap Value × Option Value :=
  ({ this with handles := this.handles.erase id }, this.handles.get? id)

end HandleMap

inductive Event (Value : Type) where
  | insert (handle : Value)
  | remove (id : UInt64)

def handleMap (Value : Type) :
    System (HandleMap Value) (Event Value) (UInt64 ⊕ Option Value) where
  start := .new
  step this
    | .insert handle => (this.insert handle).map fun done => (done.1, some (.inl done.2))
    | .remove id => some ((this.remove id).1, some (.inr (this.remove id).2))

/-- Handles are only inserted while fewer than `2 ^ 64 - 1` are live. -/
def Sparse (this : HandleMap Value) : Event Value → Prop
  | .insert _ => this.handles.keys.length < 2 ^ 64 - 1
  | .remove _ => True

/-- Some number is free beside the next one. -/
theorem exists_free {handles : Table UInt64 Value} (sparse : handles.keys.length < 2 ^ 64 - 1)
    (id : UInt64) : ∃ free, free ≠ id ∧ handles.get? free = none := by
  have few : ((id :: handles.keys).map UInt64.toNat).toFinset.card <
      (Finset.range (2 ^ 64)).card := by
    apply (List.toFinset_card_le _).trans_lt
    rw [Finset.card_range, List.length_map, List.length_cons]
    omega
  obtain ⟨number, small, outside⟩ := Finset.exists_mem_notMem_of_card_lt_card few
  have exactly : (UInt64.ofNat number).toNat = number :=
    UInt64.toNat_ofNat_of_lt (Finset.mem_range.mp small)
  have other : UInt64.ofNat number ∉ id :: handles.keys := by
    intro member
    apply outside
    rw [List.mem_toFinset, ← exactly]
    exact List.mem_map_of_mem member
  refine ⟨.ofNat number, List.ne_of_not_mem_cons other, ?_⟩
  by_contra live
  obtain ⟨value, found⟩ := Option.ne_none_iff_exists'.mp live
  exact other (.tail _ ((mem_keys_iff handles).mpr ⟨value, found⟩))

theorem distance_succ {number candidate : UInt64} (different : number ≠ candidate) :
    (number - (candidate + 1)).toNat + 1 = (number - candidate).toNat := by
  have apart : number.toNat ≠ candidate.toNat := fun same => different (UInt64.toNat_inj.mp same)
  rw [UInt64.toNat_sub, UInt64.toNat_sub, UInt64.toNat_add]
  have small := number.toNat_lt
  have bound := candidate.toNat_lt
  simp only [UInt64.toNat_one]
  omega

theorem ne_of_nearer {free id candidate : UInt64}
    (nearer : (free - candidate).toNat < (id - candidate).toNat) : id ≠ candidate := by
  rintro rfl
  rw [UInt64.sub_self] at nearer
  exact Nat.not_lt_zero _ nearer

variable {this : HandleMap Value}

/-- Going up from the candidate, a free number comes before the one that is given out. -/
theorem insert_ends (sparse : this.handles.keys.length < 2 ^ 64 - 1) (handle : Value) :
    ∃ nextId, nextId ≠ this.nextId ∧ this.handles.get? nextId = none ∧
      this.insert handle =
        some (⟨this.handles.insert this.nextId handle, nextId⟩, this.nextId) := by
  obtain ⟨free, different, absent⟩ := exists_free sparse this.nextId
  have progress : ∀ candidate next,
      (free - candidate).toNat < (this.nextId - candidate).toNat →
      search this.handles candidate = .again next →
      (free - next).toNat < (this.nextId - next).toNat ∧
        (free - next).toNat < (free - candidate).toNat := by
    intro candidate next nearer again
    unfold search at again
    split at again
    next live =>
      cases again
      have other : free ≠ candidate := by
        rintro rfl
        rw [contains, absent] at live
        cases live
      have short := distance_succ other
      have long := distance_succ (ne_of_nearer nearer)
      omega
    · cases again
  have first : (free - (this.nextId + 1)).toNat < (this.nextId - (this.nextId + 1)).toNat := by
    have short := distance_succ different
    have bound := (free - this.nextId).toNat_lt
    rw [UInt64.toNat_sub this.nextId, UInt64.toNat_add, UInt64.toNat_one]
    omega
  obtain ⟨nextId, last, nearer, ended, found⟩ := loop_ends progress first (UInt64.toNat_lt _)
  unfold search at ended
  split at ended
  · cases ended
  next dead =>
  cases ended
  refine ⟨_, (ne_of_nearer nearer).symm, by simpa [contains] using dead, ?_⟩
  rw [HandleMap.insert, found]
  rfl

/-- The search stops at once while the next number is free. -/
theorem insert_next (free : this.handles.get? (this.nextId + 1) = none) (handle : Value) :
    this.insert handle =
      some (⟨this.handles.insert this.nextId handle, this.nextId + 1⟩, this.nextId) := by
  have ended : search this.handles (this.nextId + 1) = .done (this.nextId + 1) := by
    rw [search, contains, free]
    rfl
  rw [HandleMap.insert, show 2 ^ 64 = (2 ^ 64 - 1) + 1 by decide, loop, ended]
  rfl

/-- No insert gives out or overwrites a live handle, or searches forever. -/
theorem numbers_apart (reached : (handleMap Value).ReachableWhile Sparse this) :
    this.handles.get? this.nextId = none ∧
      ∀ handle, this.handles.keys.length < 2 ^ 64 - 1 →
        ∃ after id, this.insert handle = some (after, id) ∧ this.handles.get? id = none ∧
          ∀ other, after.handles.get? other =
            if other = id then some handle else this.handles.get? other := by
  have free : this.handles.get? this.nextId = none := by
    refine reached.invariant (motive := fun this => this.handles.get? this.nextId = none) rfl ?_
    intro before event after output _ free sparse stepped
    cases event with
    | insert handle =>
      obtain ⟨nextId, different, absent, inserted⟩ := insert_ends sparse handle
      obtain ⟨_, done, same⟩ := Option.map_eq_some_iff.mp stepped
      cases inserted.symm.trans done
      cases same
      exact (get?_insert_of_ne _ different).trans absent
    | remove id =>
      cases stepped
      rw [HandleMap.remove, get?_erase]
      split
      · rfl
      · exact free
  refine ⟨free, fun handle sparse => ?_⟩
  obtain ⟨nextId, -, -, inserted⟩ := insert_ends sparse handle
  exact ⟨_, _, inserted, free, fun other => get?_insert _ _ _ _⟩

theorem reachable_insert (reached : (handleMap Value).ReachableWhile Sparse this) {handle : Value}
    (sparse : Sparse this (.insert handle)) (free : this.handles.get? (this.nextId + 1) = none) :
    (handleMap Value).ReachableWhile Sparse
      ⟨this.handles.insert this.nextId handle, this.nextId + 1⟩ :=
  reached.step sparse (congrArg (Option.map _) (insert_next free handle))

/-- Handles that are opened and closed again move the counter on. -/
theorem reaches_next (handle : Value) (count : Nat) :
    (handleMap Value).ReachableWhile Sparse ⟨.empty, .ofNat (count + 1)⟩ := by
  induction count with
  | zero => exact ⟨_, .start⟩
  | succ count ih =>
    have sparse : Sparse ⟨.empty, .ofNat (count + 1)⟩ (.insert handle) := Nat.zero_lt_succ _
    have closed := (reachable_insert ih sparse rfl).step
      (show Sparse _ (.remove (.ofNat (count + 1))) from trivial) rfl
    rw [HandleMap.remove, erase_insert _ rfl] at closed
    rw [UInt64.ofNat_add (count + 1)]
    exact closed

/-- The last number is given out, and the counter comes around. -/
theorem numbers_apart_last : ∃ after : HandleMap Unit,
    (⟨Table.empty.insert (-2) (), -1⟩ : HandleMap Unit).insert () = some (after, -1) ∧
      after.nextId = 0 ∧ after.handles.get? (-2) = some () := by
  have before := reaches_next () (2 ^ 64 - 3)
  rw [show UInt64.ofNat (2 ^ 64 - 3 + 1) = -2 by decide] at before
  have sparse : Sparse ⟨.empty, -2⟩ (.insert ()) := Nat.zero_lt_succ _
  have last := reachable_insert before sparse rfl
  obtain ⟨after, id, inserted, absent, kept⟩ := (numbers_apart last).2 () (by decide)
  cases (insert_next rfl ()).symm.trans inserted
  exact ⟨_, inserted, rfl, kept (-2)⟩

/-- The table that the schemes use, whose counter is not bounded. -/
def unbounded (Value : Type) :
    System (Redox.HandleMap Value) (Event Value) (Nat ⊕ Option Value) where
  start := .new
  step this
    | .insert handle => some ((this.insert handle).1, some (.inl (this.insert handle).2))
    | .remove id => some ((this.remove id.toNat).1, some (.inr (this.remove id.toNat).2))

structure Agrees (this : HandleMap Value) (plain : Redox.HandleMap Value) : Prop where
  nextId : this.nextId.toNat = plain.nextId
  handles : ∀ id : UInt64, this.handles.get? id = plain.get? id.toNat

/-- The counter is not at its end when a handle is inserted. -/
def Early (this : HandleMap Value) : Event Value → Prop
  | .insert _ => this.nextId.toNat + 1 < 2 ^ 64
  | .remove _ => True

/-- Until the counter wraps, both tables answer the same. -/
theorem Agrees.step {plain : Redox.HandleMap Value} {event : Event Value} {after output}
    (agrees : Agrees this plain) (early : Early this event)
    (stepped : (handleMap Value).step this event = some (after, output)) :
    ∃ plainAfter, (unbounded Value).step plain event =
      some (plainAfter, output.map (Sum.map UInt64.toNat id)) ∧ Agrees after plainAfter := by
  cases event with
  | insert handle =>
    have next : (this.nextId + 1).toNat = plain.nextId + 1 := by
      rw [UInt64.toNat_add, UInt64.toNat_one, Nat.mod_eq_of_lt early, agrees.nextId]
    have free : this.handles.get? (this.nextId + 1) = none := by
      rw [agrees.handles, next]
      exact plain.below _ (Nat.le_succ _)
    obtain ⟨_, done, same⟩ := Option.map_eq_some_iff.mp stepped
    cases (insert_next free handle).symm.trans done
    cases same
    refine ⟨(plain.insert handle).1, ?_, next.trans HandleMap.nextId_insert_eq.symm, ?_⟩
    · rw [Option.map_some, Sum.map_inl, agrees.nextId]
      rfl
    · intro id
      rw [get?_insert, HandleMap.get?_insert, agrees.handles, ← agrees.nextId]
      simp only [UInt64.toNat_inj]
  | remove id =>
    cases stepped
    refine ⟨(plain.remove id.toNat).1, ?_, agrees.nextId, ?_⟩
    · rw [HandleMap.remove, agrees.handles]
      rfl
    · intro other
      rw [HandleMap.remove, get?_erase, HandleMap.get?_remove, agrees.handles]
      simp only [UInt64.toNat_inj]

theorem unbounded_simulates (reached : (handleMap Value).ReachableWhile Early this) :
    ∃ plain, (unbounded Value).Reachable plain ∧ Agrees this plain := by
  refine reached.invariant
    (motive := fun this => ∃ plain, (unbounded Value).Reachable plain ∧ Agrees this plain) ?_ ?_
  · exact ⟨.new, ⟨_, .start⟩, rfl, fun _ => rfl⟩
  · rintro before event after output - ⟨plain, reached, agrees⟩ early stepped
    obtain ⟨plainAfter, moved, agree⟩ := agrees.step early stepped
    exact ⟨plainAfter, reached.step trivial moved, agree⟩

end EosBase.Redox.Wrapping
