import EosBase.Redox.Syscall
import Mathlib.Data.List.Nodup

/-!
# Endpoints and their device contexts

Drivers number the endpoints of a configuration by their position across its interfaces.
The controller numbers them by address: the context of an endpoint has twice the endpoint
number in its address as its index, and one more for a device-to-host endpoint.  The
driver computes the index from the position.

Of `configure_endpoints_once` what concerns indices is modelled.  It has no result where it
panics: at an overflow of a `u8`, a shift of a `u32` by more than 31, and an index outside
of the 31 endpoint contexts.
-/

namespace EosBase.Xhci

open Redox List

structure EndpDesc where
  address : UInt8
  attributes : UInt8

inductive EndpDirection where
  | out
  | inward
  | bidirectional
  deriving DecidableEq

namespace EndpDesc

def isControl (this : EndpDesc) : Bool := this.attributes &&& 0x3 == 0

def direction (this : EndpDesc) : EndpDirection :=
  if this.isControl then .bidirectional
  else if this.address &&& 0x80 != 0 then .inward
  else .out

/-- The index of the context of an endpoint that is not a control endpoint. -/
def contextIndex (this : EndpDesc) : Nat :=
  2 * (this.address.toNat % 16) + if this.direction = .inward then 1 else 0

end EndpDesc

def endpNumToDci (endpNum : Nat) (desc : EndpDesc) : Option Nat :=
  let checked (dci : Nat) : Option Nat := if dci < 256 then some dci else none
  if endpNum = 0 then none
  else if desc.isControl ∨ desc.direction = .inward then checked (endpNum * 2 + 1)
  else if desc.direction = .out then checked (endpNum * 2)
  else none

structure IfDesc where
  endpoints : List EndpDesc

structure ConfDesc where
  configurationValue : UInt8
  interfaceDescs : List IfDesc

def ConfDesc.endpoints (this : ConfDesc) : List EndpDesc :=
  this.interfaceDescs.flatMap IfDesc.endpoints

structure PortState where
  cfgIdx : Option UInt8
  configDescs : List ConfDesc

namespace PortState

/-- `get_endp_desc`, whose loops count the endpoints of all interfaces. -/
def getEndpDesc (this : PortState) (endpIdx : Nat) : Option EndpDesc := do
  let cfgIdx ← this.cfgIdx
  let config ← this.configDescs.find? fun desc => desc.configurationValue == cfgIdx
  config.endpoints[endpIdx]?

def firstEndpDesc (this : PortState) (endpIdx : Nat) : Option EndpDesc := do
  let config ← this.configDescs[0]?
  let first ← config.interfaceDescs[0]?
  first.endpoints[endpIdx]?

/-- The index for the endpoint with a number.  The doorbell of `execute_transfer` and the
commands of `reset_endpoint` and `set_tr_deque_ptr` look it up with `getEndpDesc`,
`get_endp_status` and the doorbell of `restart_endpoint` with `firstEndpDesc`. -/
def dciBy (lookup : PortState → Nat → Option EndpDesc) (this : PortState) (endpNum : Nat) :
    Option Nat :=
  (lookup this (endpNum - 1)).bind (endpNumToDci endpNum)

/-- The indices of the contexts that are written for the endpoints from a number on. -/
def configureFrom (endpNum : Nat) : List EndpDesc → Option (Result (List Nat))
  | [] => some (.ok [])
  | desc :: rest =>
    match endpNumToDci endpNum desc with
    | none => none
    | some dci =>
      if desc.isControl then some (.error Errno.EIO)
      else if dci ≤ 31 then
        (configureFrom (endpNum + 1) rest).map fun indices => indices.map (dci :: ·)
      else none

/-- `configure_endpoints_once`: the state of the port, and the indices in use. -/
def configureEndpointsOnce (this : PortState) (configDesc : UInt8) :
    Option (PortState × Result (List Nat)) :=
  let after := { this with cfgIdx := some configDesc }
  match this.configDescs.find? fun desc => desc.configurationValue == configDesc with
  | none => some (after, .error .EBADFD)
  | some config =>
    -- The number of context entries, one more than the last index, is computed first.
    if (config.endpoints.zipIdx 1).any fun entry =>
        (endpNumToDci entry.2 entry.1).all (· == 255) then none
    else if config.endpoints.length ≥ 31 then some (after, .error Errno.EIO)
    else (configureFrom 1 config.endpoints).map fun indices => (after, indices)

end PortState

variable {desc : EndpDesc} {endpNum : Nat} {port : PortState} {value : UInt8} {config : ConfDesc}

theorem endpNumToDci_eq (positive : 0 < endpNum) (small : endpNum < 32) :
    endpNumToDci endpNum desc =
      some (2 * endpNum + if desc.isControl ∨ desc.direction = .inward then 1 else 0) := by
  unfold endpNumToDci
  dsimp only
  rw [if_neg positive.ne']
  split
  · rw [if_pos (by omega), Nat.mul_comm]
  next other =>
  have out : desc.direction = .out := by
    unfold EndpDesc.direction at other ⊢
    split at other <;> simp_all
  rw [if_pos out, if_pos (by omega), Nat.mul_comm, Nat.add_zero]

theorem endpNumToDci_iff (positive : 0 < endpNum) (small : endpNum < 32)
    (data : desc.isControl = false) :
    endpNumToDci endpNum desc = some desc.contextIndex ↔ desc.address.toNat % 16 = endpNum := by
  rw [endpNumToDci_eq positive small, EndpDesc.contextIndex, Option.some.injEq]
  simp only [data, Bool.false_eq_true, false_or]
  omega

theorem contextIndex_le : desc.contextIndex ≤ 31 := by
  unfold EndpDesc.contextIndex
  split <;> omega

theorem configureFrom_iff {descs} (positive : 0 < endpNum)
    (few : endpNum + descs.length ≤ 32) (data : ∀ desc ∈ descs, desc.isControl = false) :
    PortState.configureFrom endpNum descs = some (.ok (descs.map EndpDesc.contextIndex)) ↔
      ∀ entry ∈ descs.zipIdx endpNum, entry.1.address.toNat % 16 = entry.2 := by
  induction descs generalizing endpNum with
  | nil => simp [PortState.configureFrom]
  | cons desc rest ih =>
    rw [length_cons] at few
    obtain ⟨own, others⟩ := forall_mem_cons.mp data
    have small : endpNum < 32 := by omega
    obtain ⟨dci, converted⟩ : ∃ dci, endpNumToDci endpNum desc = some dci :=
      ⟨_, endpNumToDci_eq positive small⟩
    rw [zipIdx_cons, forall_mem_cons, ← ih (by omega) (by omega) others,
      ← endpNumToDci_iff positive small own, PortState.configureFrom, converted]
    simp only [own, Bool.false_eq_true, if_false, Option.some.injEq]
    split
    · cases PortState.configureFrom (endpNum + 1) rest with
      | none => simp
      | some result => cases result <;> simp [Except.map]
    next large =>
    refine iff_of_false (by simp) ?_
    rintro ⟨rfl, -⟩
    exact large contextIndex_le

/-- The configuration is in use under the indices that go with the addresses. -/
structure Addressed (port : PortState) (value : UInt8) (config : ConfDesc) : Prop where
  configured : port.configureEndpointsOnce value =
    some ({ port with cfgIdx := some value }, .ok (config.endpoints.map EndpDesc.contextIndex))
  used : ∀ lookup ∈ [PortState.getEndpDesc, PortState.firstEndpDesc], ∀ {desc endpNum dci},
    (desc, endpNum) ∈ config.endpoints.zipIdx 1 →
    PortState.dciBy lookup { port with cfgIdx := some value } endpNum = some dci →
    dci = desc.contextIndex
  range : ∀ desc ∈ config.endpoints, 2 ≤ desc.contextIndex ∧ desc.contextIndex ≤ 31
  distinct : (config.endpoints.map EndpDesc.contextIndex).Nodup

theorem number_lt (few : config.endpoints.length < 31)
    (member : (desc, endpNum) ∈ config.endpoints.zipIdx 1) :
    0 < endpNum ∧ endpNum < 32 ∧ config.endpoints[endpNum - 1]? = some desc := by
  obtain ⟨positive, found⟩ := List.mk_mem_zipIdx_iff_le_and_getElem?_sub.mp member
  obtain ⟨small, -⟩ := List.getElem?_eq_some_iff.mp found
  exact ⟨positive, by omega, found⟩

theorem configureEndpointsOnce_eq
    (found : port.configDescs.find? (·.configurationValue == value) = some config)
    (few : config.endpoints.length < 31) : port.configureEndpointsOnce value =
      (PortState.configureFrom 1 config.endpoints).map fun indices =>
        ({ port with cfgIdx := some value }, indices) := by
  unfold PortState.configureEndpointsOnce
  rw [found]
  dsimp only
  rw [if_neg, if_neg (by omega)]
  simp only [any_eq_true, not_exists, not_and]
  intro entry member
  obtain ⟨positive, small, -⟩ := number_lt few member
  rw [endpNumToDci_eq positive small, Option.all_some, beq_iff_eq]
  split <;> omega

/-- The indices go with the addresses exactly when the endpoint numbers are the positions,
and the first interface of the first configuration has endpoints of the same directions
in these positions, if any. -/
theorem addressed_iff (found : port.configDescs.find? (·.configurationValue == value) = some config)
    (few : config.endpoints.length < 31)
    (data : ∀ desc ∈ config.endpoints, desc.isControl = false) :
    Addressed port value config ↔
      ∀ entry ∈ config.endpoints.zipIdx 1, entry.1.address.toNat % 16 = entry.2 ∧
        ∀ first ∈ port.firstEndpDesc (entry.2 - 1),
          (first.isControl ∨ first.direction = .inward ↔ entry.1.direction = .inward) := by
  have numbers := configureFrom_iff Nat.one_pos (by omega) data
  constructor
  · rintro addressed ⟨desc, endpNum⟩ member
    obtain ⟨positive, small, -⟩ := number_lt few member
    have configured := addressed.configured
    rw [configureEndpointsOnce_eq found few, Option.map_eq_some_iff] at configured
    obtain ⟨_, ended, same⟩ := configured
    cases same
    have number := numbers.mp ended _ member
    refine ⟨number, fun first isFirst => ?_⟩
    have same := addressed.used _ (.tail _ (.head _)) member
      ((congrArg (Option.bind · _) isFirst).trans (endpNumToDci_eq positive small))
    rw [EndpDesc.contextIndex, number] at same
    split at same <;> split at same <;> first | omega | simp_all
  · intro matched
    have number := fun entry member => (matched entry member).1
    have halves : config.endpoints.map (·.contextIndex / 2) = range' 1 config.endpoints.length := by
      rw [← zipIdx_map_snd, ← map_congr_left number]
      nth_rewrite 1 [← zipIdx_map_fst 1 config.endpoints]
      rw [map_map]
      apply map_congr_left
      intro entry _
      simp only [Function.comp_apply, EndpDesc.contextIndex]
      split <;> omega
    refine ⟨?_, ?_, ?_, ?_⟩
    · rw [configureEndpointsOnce_eq found few, numbers.mpr number]
      rfl
    · intro lookup isLookup desc endpNum dci member converted
      obtain ⟨positive, small, present⟩ := number_lt few member
      have own := number _ member
      rcases mem_pair.mp isLookup with rfl | rfl
      · have right := (endpNumToDci_iff positive small
          (data desc (mem_of_getElem? present))).mpr own
        simp only [PortState.dciBy, PortState.getEndpDesc, found, present, Option.bind_eq_bind,
          Option.bind_some, right] at converted
        exact (Option.some.inj converted).symm
      · obtain ⟨first, isFirst, converted⟩ := Option.bind_eq_some_iff.mp converted
        rw [endpNumToDci_eq positive small] at converted
        cases converted
        rw [EndpDesc.contextIndex, own]
        simp only [(matched _ member).2 first isFirst]
    · intro desc member
      have half := mem_map_of_mem (f := (·.contextIndex / 2)) member
      rw [halves, mem_range'_1] at half
      exact ⟨by omega, contextIndex_le⟩
    · refine List.Nodup.of_map (· / 2) ?_
      rw [map_map]
      exact halves ▸ nodup_range'

/-- A device with one interface, which has these bulk endpoints. -/
def bulkPort (addresses : List UInt8) : PortState × ConfDesc :=
  let config := ⟨1, [⟨addresses.map (⟨·, 2⟩)⟩]⟩
  (⟨none, [config]⟩, config)

theorem addressed_in_order : Addressed (bulkPort [0x81, 0x02]).1 1 (bulkPort [0x81, 0x02]).2 := by
  refine (addressed_iff rfl (by decide) (by decide)).mpr ?_
  decide

/-- A pair of endpoints with the same number: the second one is given index 4, not 2. -/
theorem bulk_pair_misaddressed :
    ¬ Addressed (bulkPort [0x81, 0x01]).1 1 (bulkPort [0x81, 0x01]).2 := by
  intro addressed
  cases addressed.configured

end EosBase.Xhci
