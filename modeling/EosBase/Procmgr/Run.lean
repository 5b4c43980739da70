import EosBase.Lib.Transition
import EosBase.Procmgr.Jobs
import EosBase.Procmgr.Wait

/-!
# Process manager: requests and the event loop

`handle_scheme` and `run`.  The loop first drains its queues of awoken
requests, then waits for an event: either the socket is readable, and requests
are served until it would block, or a thread changed its status.

A panic ends the process manager, and so does a failing socket; such a step has
no successor here.
-/

namespace EosBase.Procmgr

open Redox

namespace ProcScheme

/-- `on_openat`: the number of the new handle. -/
def onOpenat (scheme : ProcScheme) (kernel : Kernel) (fd : Nat) (path : List Char) (readOnly : Bool)
    (uid : Nat) : Option (ProcScheme × Except Errno Nat) :=
  let opened (scheme : ProcScheme) (handle : Handle) : ProcScheme × Except Errno Nat :=
    ({ scheme with handles := scheme.handles.insert kernel.handleKey handle }, .ok kernel.handleKey)
  match scheme.handles.get? fd with
  | none => none
  | some .schemeRoot =>
    let path := path.dropWhile fun c => c == '/'
    if path = ['i', 'n', 'i', 't'] then
      if scheme.initClaimed then some (scheme, .error .EEXIST)
      else some (opened { scheme with initClaimed := true } .init)
    else if path = ['p', 's'] then
      some (opened scheme .ps)
    else if path = ['p', 'r', 'o', 'c', '-', 'c', 'r', 'e', 'd', 's', '-', 'c', 'a', 'p', 'a',
        'b', 'i', 'l', 'i', 't', 'y'] then
      if uid ≠ 0 then some (scheme, .error .EACCES)
      else if readOnly = false then some (scheme, .error .EINVAL)
      else some (opened scheme .procCredsCapability)
    else
      some (scheme, .error .ENOENT)
  | some _ => some (scheme, .error .EACCES)

/-- Digits of a `usize`, as `str::parse` reads them after an optional sign. -/
def parseDigits : List Char → Nat → Option Nat
  | [], value => if value < 2 ^ 64 then some value else none
  | c :: rest, value =>
    if c.isDigit then parseDigits rest (10 * value + (c.toNat - '0'.toNat)) else none

def parseUsize : List Char → Option Nat
  | [] => none
  | ['+'] => none
  | '+' :: rest => parseDigits rest 0
  | digits => parseDigits digits 0

def onDupProc (scheme : ProcScheme) (kernel : Kernel) (pid : ProcessId) (buf : List Char) :
    ProcScheme × Except Errno Nat :=
  let opened (scheme : ProcScheme) (handle : Handle) : ProcScheme × Except Errno Nat :=
    ({ scheme with handles := scheme.handles.insert kernel.handleKey handle }, .ok kernel.handleKey)
  if buf = ['f', 'o', 'r', 'k'] then
    match scheme.fork kernel pid with
    | (scheme, .ok childPid) => opened scheme (.proc childPid)
    | (scheme, .error errno) => (scheme, .error errno)
  else if buf = ['n', 'e', 'w', '-', 't', 'h', 'r', 'e', 'a', 'd'] then
    match scheme.newThread kernel pid with
    | (scheme, .ok thread) => opened scheme (.thread thread)
    | (scheme, .error errno) => (scheme, .error errno)
  else if ['t', 'h', 'r', 'e', 'a', 'd', '-'].isPrefixOf buf then
    match parseUsize (buf.drop 7) with
    | none => (scheme, .error .EINVAL)
    | some index =>
      match scheme.get? pid with
      | none => (scheme, .error .EBADFD)
      | some process =>
        match process.threads[index]? with
        | none => (scheme, .error .ENOENT)
        | some thread => opened scheme (.thread thread.downgrade)
  else
    (scheme, .error .EINVAL)

/-- `on_dup`.  A thread handle forwards to the kernel. -/
def onDup (scheme : ProcScheme) (kernel : Kernel) (oldId : Nat) (buf : List Char) :
    Option (ProcScheme × Except Errno Nat) :=
  match scheme.handles.get? oldId with
  | none => none
  | some (.proc pid) => some (scheme.onDupProc kernel pid buf)
  | some (.thread thread) =>
    match scheme.upgrade thread with
    | none => some (scheme, .error .EOWNERDEAD)
    | some _ => some (scheme, kernel.newContext)
  | some _ => some (scheme, .error .EBADF)

/-- A `dup` of a process forks it, adds a thread to it or does neither, and may add a handle. -/
theorem onDupProc_cases {scheme : ProcScheme} (kernel : Kernel) (pid : ProcessId)
    (buf : List Char) :
    ∃ made, (made = scheme ∨ (buf = ['f', 'o', 'r', 'k'] ∧ made = (scheme.fork kernel pid).1) ∨
        (buf = ['n', 'e', 'w', '-', 't', 'h', 'r', 'e', 'a', 'd'] ∧
          made = (scheme.newThread kernel pid).1)) ∧
      ((scheme.onDupProc kernel pid buf).1 = made ∨ ∃ handle ≠ .init,
        (scheme.onDupProc kernel pid buf).1 =
          { made with handles := made.handles.insert kernel.handleKey handle }) := by
  simp only [onDupProc]
  split
  next command =>
    refine ⟨_, .inr (.inl ⟨command, rfl⟩), ?_⟩
    split
    next childPid forked => exact .inr ⟨.proc childPid, by simp, by rw [forked]⟩
    next failed => exact .inl (by rw [failed])
  split
  next command =>
    refine ⟨_, .inr (.inr ⟨command, rfl⟩), ?_⟩
    split
    next thread added => exact .inr ⟨.thread thread, by simp, by rw [added]⟩
    next failed => exact .inl (by rw [failed])
  refine ⟨scheme, .inl rfl, ?_⟩
  split
  · split
    · exact .inl rfl
    split
    · exact .inl rfl
    split
    · exact .inl rfl
    · exact .inr ⟨_, by simp, rfl⟩
  · exact .inl rfl

def served (scheme : ProcScheme) (states : Table VirtualId PendingState) (awoken : List VirtualId)
    (op : OpCall) (result : Except Errno Nat) (written : Written := .nothing) : Work :=
  ⟨scheme, states, awoken, .ready { tag := op.requestId, result := result, written := written }⟩

def orZero (result : Except Errno Unit) : Except Errno Nat :=
  result.map fun _ => 0

def orDefault (arg default : Nat) : Nat :=
  if arg = 0 then default else arg

def waitTarget (verb : ProcCall) (arg : Nat) : WaitpidTarget :=
  if verb = .waitpid then
    if arg = 0 then .anyChild else .singleProc arg
  else
    if arg = 0 then .anyGroupMember else .procGroup arg

/-- `on_call` on a process handle; `none` for a panic. -/
def onProcCall (scheme : ProcScheme) (kernel : Kernel) (states : Table VirtualId PendingState)
    (awoken : List VirtualId) (fdPid : ProcessId) (verb : ProcCall) (op : OpCall) : Option Work :=
  let reqId := VirtualId.kernelId op.requestId
  match verb with
  | .exit =>
    some (scheme.onExitStart kernel states awoken reqId fdPid (op.arg1 % 65536) (some op.requestId))
  | .waitpid | .waitpgid =>
    match op.waitFlags with
    | none => some (scheme.served states awoken op (.error .EINVAL))
    | some flags =>
      some (scheme.workOnWait kernel states awoken reqId fdPid (waitTarget verb op.arg1) flags op)
  | .setpgid =>
    let targetPid := orDefault op.arg1 fdPid
    let newPgid := orDefault op.arg2 targetPid
    if newPgid = 2 ^ 64 - 1 then
      some (scheme.served states awoken op (scheme.onGetpgid fdPid targetPid))
    else
      let done := scheme.onSetpgid fdPid targetPid newPgid awoken
      some (done.scheme.served states done.awoken op (orZero done.result))
  | .getsid =>
    some (scheme.served states awoken op (scheme.onGetsid fdPid (orDefault op.arg1 fdPid)))
  | .getppid => some (scheme.served states awoken op (scheme.onGetppid fdPid))
  | .setsid =>
    let done := scheme.onSetsid fdPid awoken
    some (done.scheme.served states done.awoken op (orZero done.result))
  | .setResugid =>
    (scheme.onSetresugid fdPid op.payload op.aligned).map fun done =>
      done.1.served states awoken op (orZero done.2)
  | .kill =>
    if op.arg2 > 64 then
      some (scheme.served states awoken op (.error .EINVAL))
    else
      let done := scheme.onKill kernel fdPid op.killTarget op.arg2 .idempotent awoken
      some (done.scheme.served states done.awoken op (orZero done.result))
  | .sigq =>
    if op.arg2 > 64 then
      some (scheme.served states awoken op (.error .EINVAL))
    else if op.payload.length ≠ rtSigInfoSize then
      some (scheme.served states awoken op (.error .EINVAL))
    else
      let done := scheme.onKill kernel fdPid op.killTarget op.arg2 (.queued op.payload) awoken
      some (done.scheme.served states done.awoken op (orZero done.result))
  | .syncSigPctl =>
    let done := scheme.onSyncSigpctl kernel fdPid
    some (done.1.served states awoken op (orZero done.2))
  | .sigdeq =>
    match scheme.onSigdeq fdPid op.payload with
    | (scheme, .ok info) => some (scheme.served states awoken op (.ok 0) (.bytes info))
    | (scheme, .error errno) => some (scheme.served states awoken op (.error errno))
  | .rename =>
    (scheme.onProcRename fdPid op.payload).map fun done =>
      done.1.served states awoken op (orZero done.2)
  | .disableSetpgid =>
    let done := scheme.onDisableSetpgid fdPid
    some (done.1.served states awoken op (orZero done.2))
  | .getProcCredentials => some (scheme.served states awoken op (.error .EACCES))
  | .setrens => some (scheme.served states awoken op (.error .EINVAL))
  | .setProcPriority =>
    let done := scheme.onSetprocprio fdPid (orDefault op.arg1 fdPid) (op.arg2 % 2 ^ 32)
    some (done.1.served states awoken op (orZero done.2))
  | .getProcPriority =>
    some (scheme.served states awoken op (scheme.onGetprocprio (orDefault op.arg1 fdPid)))

def onThreadCall (scheme : ProcScheme) (kernel : Kernel) (states : Table VirtualId PendingState)
    (awoken : List VirtualId) (thread : ThreadRef) (op : OpCall) : Work :=
  match scheme.upgrade thread with
  | none => scheme.served states awoken op (.error .EOWNERDEAD)
  | some thread =>
    match op.threadCall with
    | none => scheme.served states awoken op (.error .EINVAL)
    | some .syncSigTctl =>
      let done := scheme.onSyncSigtctl kernel thread
      done.1.served states awoken op (orZero done.2)
    | some .signalThread =>
      let done := scheme.onKillThread kernel thread (op.arg1 % 256) awoken
      done.scheme.served states done.awoken op (orZero done.result)

def onCall (scheme : ProcScheme) (kernel : Kernel) (states : Table VirtualId PendingState)
    (awoken : List VirtualId) (op : OpCall) : Option Work :=
  match scheme.handles.get? op.fd with
  | none => none
  | some .init => some (scheme.served states awoken op (.error .EBADF))
  | some (.thread thread) => some (scheme.onThreadCall kernel states awoken thread op)
  | some (.proc fdPid) =>
    match op.procCall with
    | none => some (scheme.served states awoken op (.error .EINVAL))
    | some verb => scheme.onProcCall kernel states awoken fdPid verb op
  | some .ps => some (scheme.served states awoken op (.error .EOPNOTSUPP))
  | some .procCredsCapability =>
    match op.procCall with
    | some .getProcCredentials =>
      match scheme.readProcessMetadata op.arg1 op.payload op.aligned with
      | .ok written => some (scheme.served states awoken op (.ok procMetaSize) written)
      | .error errno => some (scheme.served states awoken op (.error errno))
    | _ => some (scheme.served states awoken op (.error .EINVAL))
  | some .schemeRoot => some (scheme.served states awoken op (.error .EBADF))

end ProcScheme

inductive Request where
  | openAt (requestId fd : Nat) (path : List Char) (readOnly : Bool) (uid : Nat)
  | dup (requestId fd : Nat) (buf : List Char)
  | call (op : OpCall)
  /-- Requests that only read: `Read`, `Fpath`, `Fsize`, `Fstat`, and unknown ones. -/
  | query (requestId : Nat)
  | cancellation (id : Nat)
  | onClose (id : Nat)
  | sendFd (requestId id : Nat)

/-- The status of a context, as a thread event finds it. -/
inductive ContextStatus where
  | dead
  | forceKilled
  | unhandledExcp
  | other
  deriving DecidableEq, Repr

inductive Phase where
  | draining
  | waiting
  | serving
  deriving DecidableEq, Repr

structure Manager where
  scheme : ProcScheme
  states : Table VirtualId PendingState
  awoken : List VirtualId
  newAwoken : List VirtualId
  phase : Phase

inductive Event where
  /-- `awoken.append(&mut new_awoken)`, once the last batch is drained. -/
  | appendAwoken
  /-- One iteration of the loop over `awoken`. -/
  | wake (kernel : Kernel)
  /-- Both queues are empty. -/
  | drained
  /-- The socket became readable. -/
  | socketEvent
  | request (request : Request) (kernel : Kernel)
  /-- No further request is there. -/
  | wouldBlock
  | threadEvent (data : Nat) (status : ContextStatus) (kernel : Kernel)
  /-- A process writes to the signal pages it shares with its manager. -/
  | userStore (pid : ProcessId) (procPage : SigProcControl) (threadPage : Nat → Sigcontrol)

/-- What the environment may answer: every process and every group is visited
when a hash map is iterated, and none twice, and a new handle gets a free slot. -/
structure Kernel.Admits (kernel : Kernel) (scheme : ProcScheme) : Prop where
  orderNodup : kernel.order.Nodup
  orderCovers : ∀ pid ∈ scheme.processes.keys, pid ∈ kernel.order
  groupOrderNodup : kernel.groupOrder.Nodup
  groupOrderCovers : ∀ grp ∈ scheme.groups.keys, grp ∈ kernel.groupOrder
  handleKeyFree : scheme.handles.get? kernel.handleKey = none

instance (kernel : Kernel) (scheme : ProcScheme) : Decidable (kernel.Admits scheme) :=
  decidable_of_iff
    (kernel.order.Nodup ∧ (∀ pid ∈ scheme.processes.keys, pid ∈ kernel.order) ∧
      kernel.groupOrder.Nodup ∧ (∀ grp ∈ scheme.groups.keys, grp ∈ kernel.groupOrder) ∧
      scheme.handles.get? kernel.handleKey = none)
    ⟨fun ⟨a, b, c, d, e⟩ => ⟨a, b, c, d, e⟩, fun ⟨a, b, c, d, e⟩ => ⟨a, b, c, d, e⟩⟩

def Process.dropThread (process : Process) (rc : Nat) : Process :=
  { process with threads := process.threads.filter fun thread => thread.rc != rc }

def ProcScheme.buried (scheme : ProcScheme) (data : Nat) (pid : ProcessId) (process : Process) :
    ProcScheme :=
  { scheme with threadLookup := scheme.threadLookup.erase data }.set pid process

def ProcScheme.takeInternalId (scheme : ProcScheme) : ProcScheme :=
  { scheme with nextInternalId := scheme.nextInternalId + 1 }

namespace Manager

def start : Manager where
  scheme := {
    processes := .empty
    groups := .empty
    handles := Table.empty.insert 0 .schemeRoot
    threadLookup := .empty
    nextInternalId := 1
    initClaimed := false
    nextId := 2
    nextRc := 0 }
  states := .empty
  awoken := []
  newAwoken := []
  phase := .draining

abbrev Step := Manager × Option Response

def respond (manager : Manager) (requestId : Nat) (done : ProcScheme × Except Errno Nat) : Step :=
  ({ manager with scheme := done.1 }, some { tag := requestId, result := done.2 })

def finish (manager : Manager) (work : ProcScheme.Work) : Step :=
  ({ manager with scheme := work.scheme, states := work.states, awoken := work.awoken },
    match work.poll with
    | .ready response => some response
    | .pending => none)

/-- A cancellation detaches the waiter; an exit goes on under an internal id. -/
def cancel (manager : Manager) (id : Nat) : Step :=
  let reqId := VirtualId.kernelId id
  let states := manager.states.erase reqId
  match manager.states.get? reqId with
  | some (.awaitingStatusChange _ _ _ op) =>
    ({ manager with states := states }, some { tag := op.requestId, result := .error .ECANCELED })
  | some (.awaitingThreadsTermination pid tag) =>
    let vid := VirtualId.internalId manager.scheme.nextInternalId
    ({ manager with
      scheme := manager.scheme.takeInternalId
      states := states.insert vid (.awaitingThreadsTermination pid none)
      awoken := manager.awoken ++ [vid] },
      tag.map fun tag => { tag := tag, result := .error .ECANCELED })
  | some .placeholder => ({ manager with states := states }, none)
  | none => (manager, none)

def handleScheme (manager : Manager) (kernel : Kernel) : Request → Option Step
  | .openAt requestId fd path readOnly uid =>
    (manager.scheme.onOpenat kernel fd path readOnly uid).map (manager.respond requestId)
  | .dup requestId fd buf =>
    (manager.scheme.onDup kernel fd buf).map (manager.respond requestId)
  | .call op =>
    -- A finished request may have left a placeholder under this id.
    (manager.scheme.onCall kernel (manager.states.erase (.kernelId op.requestId))
      manager.awoken op).map manager.finish
  | .query _ => some (manager, none)
  | .cancellation id => some (manager.cancel id)
  | .onClose id =>
    some ({ manager with
      scheme := { manager.scheme with handles := manager.scheme.handles.erase id } }, none)
  | .sendFd requestId id =>
    (manager.scheme.onSendfd kernel id).map (manager.respond requestId)

/-- The body of the loop over `awoken`.  What this awakes goes to `new_awoken`. -/
def wake (manager : Manager) (kernel : Kernel) (id : VirtualId) (rest : List VirtualId) : Step :=
  match manager.states.get? id with
  | none => ({ manager with awoken := rest }, none)
  | some state =>
    let work := manager.scheme.workOn kernel manager.states manager.newAwoken id state
    ({ manager with
      scheme := work.scheme, states := work.states, awoken := rest, newAwoken := work.awoken },
      match work.poll with
      | .ready response => some response
      | .pending => none)

/-- The raw exit status of a process whose last thread died. -/
def deathStatus : ContextStatus → Option Nat
  | .dead => some 0
  | .forceKilled => some ((sigkill <<< 8) % 65536)
  | .unhandledExcp => some 1
  | .other => none

def threadDied (manager : Manager) (kernel : Kernel) (data : Nat) (thread : Thread)
    (process : Process) (status : Nat) : Step :=
  let remaining := process.dropThread thread.rc
  match process.status with
  | .exiting _ _ =>
    ({ manager with
      scheme := manager.scheme.buried data thread.pid
        { remaining with awaitingThreadsTerm := [] }
      awoken := manager.awoken ++ process.awaitingThreadsTerm }, none)
  | _ =>
    let scheme := manager.scheme.buried data thread.pid remaining
    if remaining.threads.isEmpty then
      match manager.states.get? (.internalId scheme.nextInternalId) with
      | some _ => ({ manager with scheme := scheme.takeInternalId }, none)
      | none =>
        manager.finish (scheme.takeInternalId.onExitStart kernel manager.states
          manager.awoken (.internalId scheme.nextInternalId) thread.pid status none)
    else
      ({ manager with scheme := scheme }, none)

def onThreadEvent (manager : Manager) (kernel : Kernel) (data : Nat) (status : ContextStatus) :
    Step :=
  match (manager.scheme.threadLookup.get? data).bind manager.scheme.upgrade with
  | none => (manager, none)
  | some thread =>
    match manager.scheme.get? thread.pid, deathStatus status with
    | some process, some status => manager.threadDied kernel data thread process status
    | _, _ => (manager, none)

def userStore (scheme : ProcScheme) (pid : ProcessId) (procPage : SigProcControl)
    (threadPage : Nat → Sigcontrol) : ProcScheme :=
  scheme.modify pid fun process =>
    { process with
      sigPctl := process.sigPctl.map fun _ => procPage
      threads := process.threads.map fun thread =>
        thread.mapSigCtrl fun _ => threadPage thread.rc }

def step (manager : Manager) : Event → Option Step
  | .appendAwoken =>
    if manager.phase = .draining ∧ manager.awoken = [] ∧ manager.newAwoken ≠ [] then
      some ({ manager with awoken := manager.newAwoken, newAwoken := [] }, none)
    else
      none
  | .wake kernel =>
    if manager.phase = .draining ∧ kernel.Admits manager.scheme then
      match manager.awoken with
      | [] => none
      | id :: rest => some (manager.wake kernel id rest)
    else
      none
  | .drained =>
    if manager.phase = .draining ∧ manager.awoken = [] ∧ manager.newAwoken = [] then
      some ({ manager with phase := .waiting }, none)
    else
      none
  | .socketEvent =>
    if manager.phase = .waiting then
      some ({ manager with phase := .serving }, none)
    else
      none
  | .request request kernel =>
    if manager.phase = .serving ∧ kernel.Admits manager.scheme then
      manager.handleScheme kernel request
    else
      none
  | .wouldBlock =>
    if manager.phase = .serving then
      some ({ manager with phase := .draining }, none)
    else
      none
  | .threadEvent data status kernel =>
    if manager.phase = .waiting ∧ kernel.Admits manager.scheme then
      some ({ manager with phase := .draining }.onThreadEvent kernel data status)
    else
      none
  | .userStore pid procPage threadPage =>
    some ({ manager with scheme := userStore manager.scheme pid procPage threadPage }, none)

section

variable {manager manager' : Manager} {kernel : Kernel}

/-- A step that wakes a request takes the first one of the queue. -/
theorem of_step_wake {output} (stepped : manager.step (.wake kernel) = some (manager', output)) :
    kernel.Admits manager.scheme ∧ ∃ id rest, manager.awoken = id :: rest ∧
      manager.wake kernel id rest = (manager', output) := by
  simp only [step] at stepped
  split at stepped
  next guard =>
    split at stepped
    · cases stepped
    next id rest queued => exact ⟨guard.2, id, rest, queued, Option.some.inj stepped⟩
  · cases stepped

theorem of_step_request {output request}
    (stepped : manager.step (.request request kernel) = some (manager', output)) :
    kernel.Admits manager.scheme ∧
      manager.handleScheme kernel request = some (manager', output) := by
  simp only [step] at stepped
  split at stepped
  next guard => exact ⟨guard.2, stepped⟩
  · cases stepped

theorem of_step_threadEvent {output data status}
    (stepped : manager.step (.threadEvent data status kernel) = some (manager', output)) :
    kernel.Admits manager.scheme ∧
      { manager with phase := .draining }.onThreadEvent kernel data status =
        (manager', output) := by
  simp only [step] at stepped
  split at stepped
  next guard => exact ⟨guard.2, Option.some.inj stepped⟩
  · cases stepped

end

end Manager

def procmgr : System Manager Event Response where
  start := Manager.start
  step := Manager.step

end EosBase.Procmgr
