import EosBase.Lib.RingLog
import EosBase.Lib.Transition

/-!
# The queue pair of an NVMe controller

The driver writes commands into the submission queue and tells the controller its new
tail; the controller fetches the commands, and writes an entry for each one that it has
completed into the completion queue.  Queue indices and command identifiers are 16-bit
numbers in the source.  None of them ever exceeds the length of its queue, so they are
natural numbers here.
-/

namespace EosBase.Nvme

structure NvmeCmd where
  opcode : UInt8
  flags : UInt8
  cid : Nat
  nsid : UInt32
  mptr : UInt64
  dptr : UInt64 × UInt64
  cdw10 : UInt32
  cdw11 : UInt32
  cdw12 : UInt32
  cdw13 : UInt32
  cdw14 : UInt32
  cdw15 : UInt32
  deriving DecidableEq

/-- `NvmeCmd::default()`, which is also what zeroed memory holds. -/
def NvmeCmd.zeroed : NvmeCmd := ⟨0, 0, 0, 0, 0, (0, 0), 0, 0, 0, 0, 0, 0⟩

structure NvmeComp where
  commandSpecific : UInt32
  sqHead : Nat
  sqId : Nat
  cid : Nat
  status : Nat
  deriving DecidableEq

namespace NvmeComp

def zeroed : NvmeComp := ⟨0, 0, 0, 0, 0⟩

def phaseTag (this : NvmeComp) : Bool :=
  this.status % 2 == 1

end NvmeComp

structure NvmeCmdQueue where
  data : List NvmeCmd
  tail : Nat
  head : Nat

namespace NvmeCmdQueue

def new : NvmeCmdQueue := ⟨List.replicate 64 .zeroed, 0, 0⟩

def isFull (this : NvmeCmdQueue) : Bool :=
  this.head == this.tail + 1

/-- `NvmeCmdQueue::submit_unchecked`; the new tail is the result in the source. -/
def submitUnchecked (this : NvmeCmdQueue) (entry : NvmeCmd) : NvmeCmdQueue :=
  { this with
    data := this.data.set this.tail entry
    tail := (this.tail + 1) % this.data.length }

end NvmeCmdQueue

structure NvmeCompQueue where
  data : List NvmeComp
  head : Nat
  phase : Bool

namespace NvmeCompQueue

def new : NvmeCompQueue := ⟨List.replicate 256 .zeroed, 0, true⟩

/-- `NvmeCompQueue::complete`.  The new head, which it returns as well, is that of the
queue. -/
def complete (this : NvmeCompQueue) : Option (NvmeCompQueue × NvmeComp) :=
  match this.data[this.head]? with
  | none => none
  | some entry =>
    if entry.phaseTag = this.phase then
      let head := (this.head + 1) % this.data.length
      some ({ this with head, phase := if head = 0 then !this.phase else this.phase }, entry)
    else
      none

end NvmeCompQueue

/-- `Nvme::try_submit_raw` on one queue: the queue, whose tail goes to the controller, and
the identifier of the command. -/
def trySubmitRaw (sq : NvmeCmdQueue) (cmd : NvmeCmd) : Option (NvmeCmdQueue × Nat) :=
  if sq.isFull then none
  else some (sq.submitUnchecked { cmd with cid := sq.tail }, sq.tail)

/-- A queue pair and its controller, with all that was submitted, fetched and posted. -/
structure QueuePair where
  sq : NvmeCmdQueue
  cq : NvmeCompQueue
  /-- The tail that the driver wrote last. -/
  tailDoorbell : Nat
  /-- The slot that the controller fetches next. -/
  fetchHead : Nat
  /-- The commands that were fetched and not completed. -/
  executing : List NvmeCmd
  submitted : List NvmeCmd
  fetched : List NvmeCmd
  posted : List NvmeComp
  polled : Nat

inductive QueueEvent where
  /-- `try_submit` of a command. -/
  | trySubmit (cmd : NvmeCmd)
  /-- The controller fetches the next command. -/
  | fetch
  /-- The controller completes one of the fetched commands, in any order. -/
  | complete (index : Nat) (comp : NvmeComp)
  /-- One round of the loop of `poll_cqes`. -/
  | pollCqe

namespace QueuePair

def new : QueuePair := ⟨.new, .new, 0, 0, [], [], [], [], 0⟩

def trySubmit (this : QueuePair) (cmd : NvmeCmd) : QueuePair :=
  match trySubmitRaw this.sq cmd with
  | none => this
  | some (sq, cid) =>
    { this with
      sq, tailDoorbell := sq.tail, submitted := this.submitted ++ [{ cmd with cid := cid }] }

def fetch (this : QueuePair) : Option QueuePair :=
  if this.fetchHead = this.tailDoorbell then none
  else this.sq.data[this.fetchHead]?.map fun cmd =>
    { this with
      fetchHead := (this.fetchHead + 1) % this.sq.data.length
      executing := this.executing ++ [cmd]
      fetched := this.fetched ++ [cmd] }

/-- A completion tells the identifier of the command, the head of the submission queue and
the phase of the lap, and does not overwrite one that was not polled. -/
def Truthful (this : QueuePair) (cmd : NvmeCmd) (comp : NvmeComp) : Prop :=
  comp.cid = cmd.cid ∧ comp.sqHead = this.fetchHead ∧
    comp.phaseTag = phase this.cq.data.length this.posted.length ∧
    this.posted.length < this.polled + this.cq.data.length

instance (this : QueuePair) (cmd : NvmeCmd) (comp : NvmeComp) :
    Decidable (this.Truthful cmd comp) :=
  inferInstanceAs (Decidable (_ ∧ _))

def complete (this : QueuePair) (index : Nat) (comp : NvmeComp) : Option QueuePair :=
  match this.executing[index]? with
  | none => none
  | some cmd =>
    if this.Truthful cmd comp then
      some { this with
        executing := this.executing.eraseIdx index
        cq := { this.cq with
          data := this.cq.data.set (this.posted.length % this.cq.data.length) comp }
        posted := this.posted ++ [comp] }
    else
      none

def pollCqe (this : QueuePair) : QueuePair :=
  match this.cq.complete with
  | none => this
  | some (cq, cqe) =>
    { this with cq, sq := { this.sq with head := cqe.sqHead }, polled := this.polled + 1 }

def step (this : QueuePair) : QueueEvent → Option (QueuePair × Option Unit)
  | .trySubmit cmd => some (this.trySubmit cmd, none)
  | .fetch => this.fetch.map fun next => (next, none)
  | .complete index comp => (this.complete index comp).map fun next => (next, none)
  | .pollCqe => some (this.pollCqe, none)

/-- The identifiers of the commands that were submitted and whose completion was not
polled. -/
def live (this : QueuePair) : List Nat :=
  (this.submitted.drop this.fetched.length).map NvmeCmd.cid ++
    (this.executing.map NvmeCmd.cid ++ (this.posted.drop this.polled).map NvmeComp.cid)

end QueuePair

def queuePair : System QueuePair QueueEvent Unit where
  start := .new
  step := QueuePair.step

end EosBase.Nvme
