import EosBase.Lib.Table
import EosBase.Xhci.Ring

/-!
# The interrupt reactor

The reactor keeps the states of the futures that wait for an event TRB, and hands each
event TRB to the first state that it takes for the one that waits for it.
-/

namespace EosBase.Xhci

structure PortId where
  rootHubPortNum : UInt8
  routeString : UInt32
  deriving DecidableEq

structure RingId where
  port : PortId
  endpointNum : UInt8
  streamId : UInt16
  deriving DecidableEq

inductive StateKind where
  | commandCompletion (physPtr : Nat)
  | transfer (firstPhysPtr lastPhysPtr : Nat) (ringId : RingId)
  | other (trbType : TrbType)

/-- A future that waits for an event, which its waker stands for. -/
structure State where
  waker : Nat
  kind : StateKind
  isIsochOrVf : Bool

structure NextEventTrb where
  eventTrb : Trb
  srcTrb : Option Trb

namespace Trb

def reserved : Trb := zeroed

def completionCode (this : Trb) : UInt8 :=
  (this.status >>> 24).toUInt8

/-- `Trb::has_completion_trb_pointer`: no ring underrun, ring overrun or full event ring of a
virtual function. -/
def hasCompletionTrbPointer (this : Trb) : Bool :=
  this.completionCode != 0x0E && this.completionCode != 0x0F && this.completionCode != 0x10

/-- `Trb::completion_trb_pointer` and `Trb::transfer_event_trb_pointer`. -/
def trbPointer (this : Trb) : Option Nat :=
  if this.hasCompletionTrbPointer then some this.data.toNat else none

end Trb

inductive RingOrStreams where
  | ring (ring : Ring)
  | streams (rings : Table UInt16 Ring)

/-- The part of the host controller that the reactor uses. -/
structure Hci where
  ac64 : Bool
  cmd : Ring
  portStates : Table PortId (Table UInt8 RingOrStreams)

namespace Hci

def withRing (this : Hci) (id : RingId) : Option Ring :=
  match this.portStates.get? id.port with
  | none => none
  | some endpointStates =>
    match endpointStates.get? id.endpointNum with
    | none => none
    | some (.ring ring) => some ring
    | some (.streams rings) => rings.get? id.streamId

def getTransferTrb (this : Hci) (paddr : Nat) (id : RingId) : Option (Option Trb) :=
  match this.withRing id with
  | none => some none
  | some ring => ring.physAddrToEntry this.ac64 paddr

end Hci

/-- The types for which `next_misc_event_trb` does not panic. -/
def miscEventTrbTypes : List TrbType :=
  [.portStatusChange, .bandwidthRequest, .doorbell, .hostController, .deviceNotification,
    .mfindexWrap]

namespace IrqReactor

inductive Verdict where
  /-- Go on with the next state. -/
  | pass
  /-- Remove the state without a word. -/
  | discard
  /-- Remove and finish the state, and go on. -/
  | finish (message : Option NextEventTrb)
  /-- Remove and finish the state, and return. -/
  | deliver (cmd : Ring) (message : Option NextEventTrb)
  /-- `acknowledge_failed_transfer_trbs`. -/
  | failed

def hits (firstPhysPtr lastPhysPtr physPtr : Nat) : Bool :=
  if firstPhysPtr ≤ lastPhysPtr then
    decide (firstPhysPtr ≤ physPtr) && decide (physPtr ≤ lastPhysPtr)
  else
    decide (firstPhysPtr ≤ physPtr) || decide (physPtr ≤ lastPhysPtr)

/-- A transfer on a dead ring is finished with whatever event comes. -/
def checkDead (hci : Hci) (trb : Trb) (ringId : RingId) : Verdict :=
  if (hci.withRing ringId).isNone then .finish (some ⟨trb, none⟩) else .pass

def inspectCommand (hci : Hci) (trb : Trb) (physPtr : Nat) : Option Verdict :=
  if trb.trbPointer = some physPtr then
    match hci.cmd.physAddrToIndex hci.ac64 physPtr with
    | none => none
    | some none => some .discard
    | some (some index) =>
      hci.cmd.trbs[index]?.map fun command =>
        .deliver (hci.cmd.fill index .reserved) (some ⟨trb, some command⟩)
  else
    some .pass

def inspectTransfer (hci : Hci) (trb : Trb) (firstPhysPtr lastPhysPtr : Nat) (ringId : RingId) :
    Option Verdict :=
  if trb.trbType = TrbType.transfer.toUInt8 then
    match trb.trbPointer with
    | some physPtr =>
      if hits firstPhysPtr lastPhysPtr physPtr then
        (hci.getTransferTrb physPtr ringId).map fun src => .deliver hci.cmd (some ⟨trb, src⟩)
      else
        some (checkDead hci trb ringId)
    | none => some .failed
  else
    some (checkDead hci trb ringId)

/-- The body of the loop of `acknowledge`.  There is no result when it panics. -/
def inspect (hci : Hci) (trb : Trb) : StateKind → Option Verdict
  | .commandCompletion physPtr =>
    if trb.trbType = TrbType.commandCompletion.toUInt8 then inspectCommand hci trb physPtr
    else some .pass
  | .transfer firstPhysPtr lastPhysPtr ringId =>
    inspectTransfer hci trb firstPhysPtr lastPhysPtr ringId
  | .other trbType =>
    if trbType.toUInt8 = trb.trbType then some (.deliver hci.cmd none) else some .pass

structure Outcome where
  cmd : Ring
  states : List State
  finished : List (State × Option NextEventTrb)

def Outcome.cons (state : State) (message : Option NextEventTrb) (this : Outcome) : Outcome :=
  { this with finished := (state, message) :: this.finished }

/-- `acknowledge_failed_transfer_trbs` from a state on.  After the removal of the last
state the loop looks behind the end, and there is no result. -/
def failTransfers (cmd : Ring) (trb : Trb) : List State → List State → Option Outcome
  | _, [] => none
  | passed, state :: states =>
    if state.isIsochOrVf then
      (failTransfers cmd trb passed states).map (Outcome.cons state (some ⟨trb, none⟩))
    else if states.isEmpty then
      some ⟨cmd, passed ++ [state], []⟩
    else
      failTransfers cmd trb (passed ++ [state]) states

def scan (hci : Hci) (trb : Trb) : List State → List State → Option Outcome
  | passed, [] => some ⟨hci.cmd, passed, []⟩
  | passed, state :: states =>
    match inspect hci trb state.kind with
    | none => none
    | some .pass => scan hci trb (passed ++ [state]) states
    | some .discard => scan hci trb passed states
    | some (.finish message) => (scan hci trb passed states).map (Outcome.cons state message)
    | some (.deliver cmd message) => some ⟨cmd, passed ++ states, [(state, message)]⟩
    | some .failed => failTransfers hci.cmd trb [] (passed ++ state :: states)

def acknowledge (hci : Hci) (states : List State) (trb : Trb) : Option Outcome :=
  scan hci trb [] states

end IrqReactor

end EosBase.Xhci
