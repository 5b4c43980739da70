import EosBase.Lib.Loop
import EosBase.Lib.Table
import Mathlib.Data.List.Perm.Subperm
import Mathlib.Data.Nat.Find

/-!
# The port set of the network stack

Each socket scheme keeps a `PortSet`, from which it takes the ephemeral ports of its
sockets and in which it claims the ports that they are bound to.  A port may have
several holders, which are counted.

`get_port` takes its ports by an offset from the first port of the range, and enters
the offset as the key of the port that it returns.  All other operations use the port
itself as the key.
-/

namespace EosBase.Netstack

open UInt16 List

structure PortSet where
  fromPort : UInt16
  range : UInt16
  next : UInt16
  ports : Table UInt16 Nat
  deriving DecidableEq

namespace PortSet

variable (this : PortSet)

/-- `PortSet::new`.  There is no result when the size of the range overflows. -/
def new (fromPort toPort : UInt16) : Option (Option PortSet) :=
  if toPort < fromPort then some none
  else if (toPort - fromPort).toNat + 1 < 2 ^ 16 then
    some (some ⟨fromPort, toPort - fromPort + 1, 0, .empty⟩)
  else none

def len : Nat :=
  this.ports.keys.length

/-- The round of `get_port` that finds its key vacant.  There is no result when the
port overflows. -/
def take : Option (PortSet × UInt16) :=
  if this.fromPort.toNat + this.next.toNat < 2 ^ 16 then
    some ({ this with ports := this.ports.insert this.next 1, next := this.next + 1 },
      this.fromPort + this.next)
  else none

def search : Turn PortSet (Option (PortSet × UInt16)) :=
  match this.ports.get? this.next with
  | none => .done this.take
  | some _ => .again { this with next := this.next + 1 }

/-- `PortSet::get_port`.  The loop comes back to its first key after `2 ^ 16` rounds. -/
def getPort : Option (PortSet × Option UInt16) :=
  if this.range.toNat ≤ this.len then some (this, none)
  else (loop search (2 ^ 16) this).join.map fun found => (found.1, some found.2)

def claimPort (port : UInt16) : PortSet × Bool :=
  match this.ports.get? port with
  | none => ({ this with ports := this.ports.insert port 1 }, true)
  | some _ => (this, false)

def acquirePort (port : UInt16) : PortSet :=
  { this with ports := this.ports.insert port ((this.ports.get? port).getD 0 + 1) }

/-- `PortSet::release_port`.  There is no result when the count underflows. -/
def releasePort (port : UInt16) : Option PortSet :=
  match this.ports.get? port with
  | none => some this
  | some 0 => none
  | some 1 => some { this with ports := this.ports.erase port }
  | some (count + 1) => some { this with ports := this.ports.insert port count }

theorem claimPort_eq_true_iff {port} :
    (this.claimPort port).2 = true ↔ this.ports.get? port = none := by
  unfold claimPort
  split
  next vacant => simp only [vacant]
  next occupied => simp only [occupied, Bool.false_eq_true, reduceCtorEq]

theorem exists_vacant {bound} (small : bound ≤ 2 ^ 16)
    (few : this.len < bound) : ∃ key : UInt16, key.toNat < bound ∧ this.ports.get? key = none := by
  by_contra occupied
  push Not at occupied
  have covered : List.range bound ⊆ this.ports.keys.map toNat := by
    intro number inRange
    rw [List.mem_range] at inRange
    have exactly : (ofNat number).toNat = number :=
      toNat_ofNat_of_lt' (inRange.trans_le small)
    rw [mem_map]
    refine ⟨ofNat number, ?_, exactly⟩
    apply (Table.mem_keys_iff _).mpr
    obtain ⟨count, found⟩ :=
      Option.ne_none_iff_exists'.mp (occupied (ofNat number) (exactly.symm ▸ inRange))
    exact ⟨count, found⟩
  have enough := (subperm_of_subset nodup_range covered).length_le
  rw [length_range, length_map] at enough
  exact absurd few (Nat.not_lt.mpr enough)

theorem loop_search {distance rounds} (enough : distance < rounds)
    (occupied : ∀ earlier < distance, this.ports.get? (this.next + ofNat earlier) ≠ none)
    (vacant : this.ports.get? (this.next + ofNat distance) = none) : loop search rounds this =
      some { this with next := this.next + ofNat distance }.take := by
  induction distance generalizing this rounds with
  | zero =>
    obtain ⟨rounds, rfl⟩ := Nat.exists_eq_succ_of_ne_zero enough.ne'
    have start : this.next + ofNat 0 = this.next := by simp
    rw [start] at vacant ⊢
    rw [loop, search, vacant]
  | succ distance ih =>
    obtain ⟨rounds, rfl⟩ :=
      Nat.exists_eq_succ_of_ne_zero (Nat.zero_lt_of_lt enough).ne'
    have shift : ∀ steps, this.next + 1 + ofNat steps = this.next + ofNat (steps + 1) := by
      intro steps
      rw [UInt16.ofNat_add, UInt16.add_assoc, UInt16.add_comm 1]
      rfl
    have first := occupied 0 (Nat.succ_pos distance)
    have start : this.next + UInt16.ofNat 0 = this.next := by simp
    rw [start] at first
    obtain ⟨count, found⟩ := Option.ne_none_iff_exists'.mp first
    rw [loop, search, found]
    have rest := ih { this with next := this.next + 1 } (Nat.lt_of_succ_lt_succ enough)
      (fun earlier before => by
        rw [shift]
        exact occupied (earlier + 1) (Nat.succ_lt_succ before))
      (by rw [shift]; exact vacant)
    rw [shift] at rest
    exact rest

/-- `get_port` takes the first vacant key, counted from `next` and around. -/
theorem getPort_eq (room : this.len < this.range.toNat) : ∃ distance < 2 ^ 16,
      (∀ earlier < distance, this.ports.get? (this.next + ofNat earlier) ≠ none) ∧
      this.ports.get? (this.next + ofNat distance) = none ∧
      this.getPort = (take { this with next := this.next + ofNat distance }).map
        fun found => (found.1, some found.2) := by
  have someVacant : ∃ distance, distance < 2 ^ 16 ∧
      this.ports.get? (this.next + ofNat distance) = none := by
    obtain ⟨key, _, vacant⟩ := this.exists_vacant le_rfl (room.trans this.range.toNat_lt)
    refine ⟨(key - this.next).toNat, (key - this.next).toNat_lt, ?_⟩
    rw [UInt16.ofNat_toNat, UInt16.add_comm, UInt16.sub_add_cancel]
    exact vacant
  obtain ⟨small, vacant⟩ := Nat.find_spec someVacant
  have occupied : ∀ earlier < Nat.find someVacant,
      this.ports.get? (this.next + ofNat earlier) ≠ none := by
    intro earlier before free
    exact Nat.find_min someVacant before ⟨before.trans small, free⟩
  refine ⟨Nat.find someVacant, small, occupied, vacant, ?_⟩
  rw [getPort, if_neg (Nat.not_le.mpr room), this.loop_search small occupied vacant]
  rfl

end PortSet

end EosBase.Netstack
