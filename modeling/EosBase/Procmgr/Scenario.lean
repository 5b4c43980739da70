import EosBase.Procmgr.Run

/-!
# Playing the process manager

Events for concrete runs: a kernel that answers every request, the registration
of init, and the requests of its clients.
-/

namespace EosBase.Procmgr.Scenario

def page : SigProcControl where
  pending := 0
  senderInfos _ := none
  signalWillIgn _ _ := false
  signalWillStop _ := false

/-- A kernel that gives out this handle and this descriptor.  The maps are small
enough for one leaf, which is searched from its start. -/
def kernel (handleKey fd : Nat) : Kernel where
  order := List.range 8
  groupOrder := List.range 8
  pivot _ _ := 0
  handleKey := handleKey
  statusWrite _ := none
  newContext := .ok fd
  procPage := .ok page
  threadPage := .error .EBADF

/-- Init opens handle 1 and sends its thread, descriptor 101. -/
def boot : List Event :=
  [.drained, .socketEvent, .request (.openAt 1 0 ['i', 'n', 'i', 't'] true 0) (kernel 1 0),
    .request (.sendFd 2 1) (kernel 2 101)]

/-- Fork the process of a handle; the child gets a handle and a descriptor. -/
def fork (handle childHandle fd : Nat) : Event :=
  .request (.dup 3 handle ['f', 'o', 'r', 'k']) (kernel childHandle fd)

def newThread (handle threadHandle fd : Nat) : Event :=
  .request (.dup 4 handle ['n', 'e', 'w', '-', 't', 'h', 'r', 'e', 'a', 'd'])
    (kernel threadHandle fd)

/-- A call on a process handle, with room for a wait status. -/
def callOp (requestId handle : Nat) (verb : ProcCall) (arg1 arg2 : Nat)
    (flags : WaitFlags := ⟨false, false, false⟩) : OpCall where
  requestId := requestId
  fd := handle
  threadCall := none
  procCall := some verb
  arg1 := arg1
  arg2 := arg2
  killTarget := .singleProc arg1
  waitFlags := some flags
  payload := [0, 0, 0, 0]
  aligned := true

def call (requestId handle : Nat) (verb : ProcCall) (arg1 arg2 : Nat)
    (flags : WaitFlags := ⟨false, false, false⟩) : Event :=
  .request (.call (callOp requestId handle verb arg1 arg2 flags)) (kernel 9 0)

def rest : List Event := [.wouldBlock, .drained]

def death (fd : Nat) : Event := .threadEvent fd .dead (kernel 9 0)

end EosBase.Procmgr.Scenario
