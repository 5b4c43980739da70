import EosBase.Lib.Loop
import Mathlib.Data.Nat.Bitwise

/-!
# Transfer request blocks and their rings

The driver and the host controller exchange transfer request blocks (TRBs) over rings
in memory.  A ring that the driver produces has a link TRB in its last slot, which leads
the controller back to the first one.  The lowest bit of the control word of a TRB is its
cycle bit, by which the controller tells TRBs of the present lap from earlier ones.
-/

namespace EosBase.Xhci

inductive TrbType where
  | reserved
  | normal | setupStage | dataStage | statusStage | isoch | link | eventData | noOp
  | enableSlot | disableSlot | addressDevice | configureEndpoint | evaluateContext
  | resetEndpoint | stopEndpoint | setTrDequeuePointer | resetDevice | forceEvent
  | negotiateBandwidth | setLatencyToleranceValue | getPortBandwidth | forceHeader | noOpCmd
  | getExtendedProperty | setExtendedProperty | rsv26 | rsv27 | rsv28 | rsv29 | rsv30 | rsv31
  | transfer | commandCompletion | portStatusChange | bandwidthRequest | doorbell
  | hostController | deviceNotification | mfindexWrap
  deriving DecidableEq

/-- The number of a type of TRBs, `trb_type as u8`. -/
def TrbType.toUInt8 (kind : TrbType) : UInt8 :=
  UInt8.ofNat kind.ctorIdx

/-- A transfer request block.  The two words of its data are one number here, since they
are always read and written together. -/
structure Trb where
  data : UInt64
  status : UInt32
  control : UInt32
  deriving DecidableEq

namespace Trb

def zeroed : Trb := ⟨0, 0, 0⟩

def trbType (this : Trb) : UInt8 :=
  ((this.control &&& 0xFC00) >>> 10).toUInt8

def cycle (this : Trb) : Bool :=
  this.control &&& 1 == 1

/-- The bit of a link TRB that tells the controller to toggle its cycle. -/
def toggle (this : Trb) : Bool :=
  this.control &&& 2 == 2

def link (address : Nat) (toggle cycle : Bool) : Trb where
  data := UInt64.ofNat address
  status := 0
  control := (TrbType.link.toUInt8.toUInt32 <<< 10) ||| (toggle.toUInt32 <<< 1) ||| cycle.toUInt32

variable {toggle cycle : Bool} {address : Nat}

theorem trbType_link : (link address toggle cycle).trbType = TrbType.link.toUInt8 := by
  simp only [link, trbType]
  revert toggle cycle
  decide

theorem cycle_link : (link address toggle cycle).cycle = cycle := by
  simp only [link, Trb.cycle]
  revert toggle cycle
  decide

theorem toggle_link : (link address toggle cycle).toggle = toggle := by
  simp only [link, Trb.toggle]
  revert toggle cycle
  decide

end Trb

structure Ring where
  link : Bool
  /-- The physical address of the first slot. -/
  physical : Nat
  trbs : List Trb
  i : Nat
  cycle : Bool

namespace Ring

def trbSize : Nat := 16

/-- `Ring::new`, in zeroed memory at the given address. -/
def new (physical length : Nat) (link : Bool) : Ring where
  link := link
  physical := physical
  trbs := List.replicate length .zeroed
  i := 0
  cycle := link

def register (this : Ring) : Nat :=
  (this.physical + trbSize * this.i) ||| this.cycle.toNat

def nextRound (this : Ring) : Turn Ring (Ring × Nat) :=
  if this.trbs.length ≤ this.i + 1 then
    if this.link then
      .again { this with
        i := 0
        trbs := this.trbs.set this.i (.link this.physical true this.cycle)
        cycle := !this.cycle }
    else
      .done ({ this with i := 0 }, this.i)
  else
    .done ({ this with i := this.i + 1 }, this.i)

/-- `Ring::next_index`.  The loop ends in its second round, or never, when a link ring
has only one slot. -/
def nextIndex (this : Ring) : Option (Ring × Nat) :=
  loop nextRound 2 this

/-- `Ring::next`: the index of the TRB that it returns, and the cycle bit for it. -/
def next (this : Ring) : Option (Ring × Nat × Bool) :=
  this.nextIndex.map fun found => (found.1, found.2, found.1.cycle)

def fill (this : Ring) (index : Nat) (trb : Trb) : Ring :=
  { this with trbs := this.trbs.set index trb }

/-- The physical address of the first slot, as the controller sees it. -/
def physBase (this : Ring) (ac64 : Bool) : Nat :=
  this.physical % if ac64 then 2 ^ 64 else 2 ^ 32

/-- `Ring::trb_phys_ptr` of the TRB in a slot. -/
def trbPhysPtr (this : Ring) (ac64 : Bool) (index : Nat) : Nat :=
  this.physBase ac64 + trbSize * index

/-- `Ring::phys_addr_to_index`.  There is no result when the address is not aligned. -/
def physAddrToIndex (this : Ring) (ac64 : Bool) (paddr : Nat) : Option (Option Nat) :=
  if paddr < this.physBase ac64 then some none
  else if (paddr - this.physBase ac64) % trbSize ≠ 0 then none
  else if this.trbs.length < (paddr - this.physBase ac64) / trbSize then some none
  else some (some ((paddr - this.physBase ac64) / trbSize))

/-- `Ring::phys_addr_to_entry`.  The bound of `phys_addr_to_index` lets the index behind the
last slot through, and there is no result then. -/
def physAddrToEntry (this : Ring) (ac64 : Bool) (paddr : Nat) : Option (Option Trb) :=
  match this.physAddrToIndex ac64 paddr with
  | none => none
  | some none => some none
  | some (some index) => this.trbs[index]?.map some

theorem physAddrToEntry_trbPhysPtr (this : Ring) (ac64 : Bool) {index}
    (inside : index < this.trbs.length) :
    this.physAddrToEntry ac64 (this.trbPhysPtr ac64 index) = some this.trbs[index]? := by
  have offset : this.trbPhysPtr ac64 index - this.physBase ac64 = trbSize * index :=
    Nat.add_sub_cancel_left _ _
  have above : ¬ this.trbPhysPtr ac64 index < this.physBase ac64 :=
    Nat.not_lt.mpr (Nat.le_add_right _ _)
  simp only [physAddrToEntry, physAddrToIndex, offset, if_neg above, Nat.mul_mod_right,
    ne_eq, not_true, if_false, Nat.mul_div_cancel_left _ (by decide : 0 < trbSize),
    if_neg (Nat.not_lt.mpr inside.le), List.getElem?_eq_getElem inside,
    Option.map_some]

variable {this : Ring}

theorem next_inside (inside : this.i + 1 < this.trbs.length) :
    this.next = some ({ this with i := this.i + 1 }, this.i, this.cycle) := by
  simp only [next, nextIndex, loop, nextRound, if_neg (Nat.not_le.mpr inside), Option.map_some]

theorem next_wrap (links : this.link = true) (last : this.i + 1 = this.trbs.length)
    (more : 1 < this.trbs.length) :
    this.next = some ({ this with
        i := 1
        trbs := this.trbs.set this.i (.link this.physical true this.cycle)
        cycle := !this.cycle }, 0, !this.cycle) := by
  have full : this.trbs.length ≤ this.i + 1 := last.symm.le
  simp only [next, nextIndex, loop, nextRound, if_pos full, links, if_true, List.length_set,
    Nat.zero_add, if_neg (Nat.not_le.mpr more), Option.map_some]

end Ring

end EosBase.Xhci
