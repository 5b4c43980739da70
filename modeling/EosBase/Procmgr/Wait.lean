import EosBase.Procmgr.Signal

/-!
# Process manager: waiting and exiting

`on_waitpid`, `reap`, `on_exit_start` and `work_on`.
-/

namespace EosBase.Procmgr

open Redox WaitpidKey Option

namespace WaitpidStatus

def encode : WaitpidStatus → Nat
  | continued => 0xffff
  | stopped signal => 0x7f ||| (signal <<< 8)
  | terminated signal status => signal.getD 0 ||| (status <<< 8)

/-- Do the flags of a wait ask for this kind of status? -/
def requested (flags : WaitFlags) : WaitpidStatus → Bool
  | continued => flags.wcontinued
  | stopped _ => flags.wuntraced
  | terminated _ _ => true

end WaitpidStatus

variable {scheme : ProcScheme}

namespace ProcScheme

/-- `reap`: a process that still has threads is left alone. -/
def reap (scheme : ProcScheme) (pid : ProcessId) : ProcScheme :=
  match scheme.get? pid with
  | none => scheme
  | some process =>
    if process.threads.isEmpty then
      { scheme with
        processes := scheme.processes.erase pid
        groups := dropMember scheme.groups process.pgid pid }
    else
      scheme

structure Reaped (scheme : ProcScheme) (pid : ProcessId) (process : Process) : Prop where
  found : scheme.get? pid = some process
  threadless : process.threads = []
  get? : ∀ other, (scheme.reap pid).get? other =
    if other = pid then none else scheme.get? other
  groups : (scheme.reap pid).groups = dropMember scheme.groups process.pgid pid
  nextId : (scheme.reap pid).nextId = scheme.nextId

variable {pid : ProcessId} {process : Process}

theorem reap_eq_self (kept : ∀ process, scheme.get? pid = some process → process.threads ≠ []) :
    scheme.reap pid = scheme := by
  unfold reap
  split
  · rfl
  next process found => simp [kept process found]

theorem reaped (found : scheme.get? pid = some process)
    (threadless : process.threads = []) : scheme.Reaped pid process := by
  have result : scheme.reap pid = { scheme with
      processes := scheme.processes.erase pid
      groups := dropMember scheme.groups process.pgid pid } := by
    simp only [reap, found, threadless, List.isEmpty_nil, if_true]
  refine ⟨found, threadless, ?_, ?_, ?_⟩
  · intro other
    rw [result]
    exact scheme.processes.get?_erase pid other
  · rw [result]
  · rw [result]

theorem reap_cases : scheme.reap pid = scheme ∨ ∃ process, scheme.Reaped pid process := by
  by_cases kept : ∀ process, scheme.get? pid = some process → process.threads ≠ []
  · exact .inl (reap_eq_self kept)
  · push Not at kept
    rcases kept with ⟨process, found, threadless⟩
    exact .inr ⟨process, reaped found threadless⟩

theorem reap_frame : ∃ processes groups,
    scheme.reap pid = { scheme with processes := processes, groups := groups } := by
  unfold reap
  split
  · exact ⟨_, _, rfl⟩
  · split <;> exact ⟨_, _, rfl⟩

theorem reap_found {other}
    (found : (scheme.reap pid).get? other = some process) : scheme.get? other = some process := by
  rcases reap_cases with same | ⟨reapedProcess, reaped⟩
  · rw [same] at found
    exact found
  rw [reaped.get?] at found
  split at found
  · cases found
  · exact found

abbrev Waited := ProcScheme × Poll (Except Errno (ProcessId × Nat))

/-- `grim_reaper`: report a status that was taken from the map.  One that the
flags do not ask for is dropped. -/
def grimReaper (scheme : ProcScheme) (flags : WaitFlags) (wPid : ProcessId)
    (status : WaitpidStatus) : Waited :=
  match status with
  | .continued =>
    if flags.wcontinued then (scheme, .ready (.ok (wPid, status.encode)))
    else (scheme, .pending)
  | .stopped _ =>
    if flags.wuntraced then (scheme, .ready (.ok (wPid, status.encode)))
    else (scheme, .pending)
  | .terminated _ _ => (scheme.reap wPid, .ready (.ok (wPid, status.encode)))

def awaitStatus (scheme : ProcScheme) (thisPid : ProcessId) (flags : WaitFlags)
    (reqId : VirtualId) : Waited :=
  if flags.wnohang then
    (scheme, .ready (.ok (0, 0)))
  else
    (scheme.modify thisPid fun process =>
      { process with waitpidWaiting := process.waitpidWaiting ++ [reqId] }, .pending)

def takeStatus (scheme : ProcScheme) (thisPid : ProcessId) (remaining : WaitpidMap)
    (flags : WaitFlags) (wPid : ProcessId) (status : WaitpidStatus) : Waited :=
  (scheme.modify thisPid fun process => { process with waitpid := remaining }).grimReaper
    flags wPid status

def onWaitpid (scheme : ProcScheme) (kernel : Kernel) (thisPid : ProcessId) (target : WaitpidTarget)
    (flags : WaitFlags) (reqId : VirtualId) : Waited :=
  let fail (errno : Errno) : Waited := (scheme, .ready (.error errno))
  let childless := scheme.processes.any (fun _ process => process.ppid == thisPid) == false
  match target with
  | .anyChild =>
    if childless then fail .ECHILD
    else
      match scheme.get? thisPid with
      | none => fail .EBADFD
      | some process =>
        match process.waitpid.firstKeyValue with
        | some (key, wPid, status) =>
          scheme.takeStatus thisPid
            (process.waitpid.remove cmp kernel.pivot key) flags wPid status
        | none => scheme.awaitStatus thisPid flags reqId
  | .anyGroupMember =>
    if childless then fail .ECHILD
    else
      match scheme.get? thisPid with
      | none => fail .EBADFD
      | some process =>
        match process.waitpid.getKeyValue cmp kernel.pivot
            ⟨none, some process.pgid⟩ with
        | some (key, wPid, status) =>
          scheme.takeStatus thisPid
            (process.waitpid.remove cmp kernel.pivot key) flags wPid status
        | none => scheme.awaitStatus thisPid flags reqId
  | .singleProc pid =>
    match scheme.get? thisPid with
    | none => fail .EBADFD
    | some process =>
      if thisPid = pid then fail .EINVAL
      else
        match scheme.get? pid with
        | none => fail .ECHILD
        | some targetProc =>
          if targetProc.ppid ≠ thisPid then fail .ECHILD
          else
            let key : WaitpidKey := ⟨some pid, none⟩
            let remaining := process.waitpid.remove cmp kernel.pivot key
            match targetProc.status with
            | .exited signal status =>
              scheme.takeStatus thisPid remaining flags pid (.terminated signal status)
            | _ =>
              match process.waitpid.getKeyValue cmp kernel.pivot key with
              | some (_, wPid, status) =>
                scheme.takeStatus thisPid remaining flags wPid status
              | none => scheme.awaitStatus thisPid flags reqId
  | .procGroup pgid =>
    match scheme.get? thisPid with
    | none => fail .EBADFD
    | some process =>
      match scheme.groups.get? pgid with
      | none => fail .ECHILD
      | some group =>
        if group.processes.any (fun member =>
            member != thisPid &&
              (scheme.get? member).any fun process => process.ppid == thisPid) then
          let key : WaitpidKey := ⟨none, some pgid⟩
          match process.waitpid.getKeyValue cmp kernel.pivot key with
          | some (_, wPid, status) =>
            scheme.takeStatus thisPid
              (process.waitpid.remove cmp kernel.pivot key) flags wPid status
          | none => scheme.awaitStatus thisPid flags reqId
        else
          fail .ECHILD

def Admits (scheme : ProcScheme) (thisPid : ProcessId) (target : WaitpidTarget) : Prop :=
  (scheme.get? thisPid).isSome ∧
    match target with
    | .anyChild | .anyGroupMember =>
      scheme.processes.any fun _ process => process.ppid == thisPid
    | .singleProc pid => thisPid ≠ pid ∧ (scheme.get? pid).any fun child => child.ppid == thisPid
    | .procGroup pgid => (scheme.groups.get? pgid).any fun group =>
      group.processes.any fun member => member != thisPid &&
        (scheme.get? member).any fun process => process.ppid == thisPid

def waitSelection (scheme : ProcScheme) (kernel : Kernel) (process : Process) :
    WaitpidTarget → Option (WaitpidKey × ProcessId × WaitpidStatus)
  | .anyChild => process.waitpid.firstKeyValue
  | .anyGroupMember =>
    process.waitpid.getKeyValue cmp kernel.pivot ⟨none, some process.pgid⟩
  | .singleProc pid =>
    match (scheme.get? pid).map Process.status with
    | some (.exited signal status) => some (⟨some pid, none⟩, pid, .terminated signal status)
    | _ => received ⟨some pid, none⟩
  | .procGroup pgid => received ⟨none, some pgid⟩
where
  received (key : WaitpidKey) : Option (WaitpidKey × ProcessId × WaitpidStatus) :=
    (process.waitpid.getKeyValue cmp kernel.pivot key).map fun entry => (key, entry.2)

def receive (scheme : ProcScheme) (kernel : Kernel) (thisPid : ProcessId) (process : Process)
    (target : WaitpidTarget) (flags : WaitFlags) (reqId : VirtualId) : Waited :=
  match scheme.waitSelection kernel process target with
  | some (key, wPid, status) =>
    scheme.takeStatus thisPid (process.waitpid.remove cmp kernel.pivot key) flags
      wPid status
  | none => scheme.awaitStatus thisPid flags reqId

theorem onWaitpid_cases (scheme : ProcScheme) (kernel : Kernel) (thisPid : ProcessId)
    (target : WaitpidTarget) (flags : WaitFlags) (reqId : VirtualId) :
    let waited := scheme.onWaitpid kernel thisPid target flags reqId
    (¬ scheme.Admits thisPid target ∧ ∃ errno, waited = (scheme, .ready (.error errno))) ∨
      ∃ process, scheme.get? thisPid = some process ∧ scheme.Admits thisPid target ∧
        waited = scheme.receive kernel thisPid process target flags reqId := by
  cases found : scheme.get? thisPid with
  | none =>
    refine .inl ⟨by simp [Admits, found], ?_⟩
    cases target <;> simp only [onWaitpid, found] <;> try split
    all_goals exact ⟨_, rfl⟩
  | some process =>
    simp only [Admits, found, isSome_some, true_and, onWaitpid, receive]
    cases target with
    | anyChild | anyGroupMember =>
      cases children : scheme.processes.any fun _ process => process.ppid == thisPid with
      | false => exact .inl ⟨by simp, .ECHILD, rfl⟩
      | true => exact .inr ⟨process, rfl, rfl, rfl⟩
    | singleProc pid =>
      dsimp only
      by_cases same : thisPid = pid
      · exact .inl ⟨fun admits => admits.1 same, .EINVAL, if_pos same⟩
      rw [if_neg same]
      cases targetFound : scheme.get? pid with
      | none => exact .inl ⟨by simp, .ECHILD, rfl⟩
      | some targetProc =>
        by_cases other : targetProc.ppid = thisPid
        · refine .inr ⟨process, rfl, ⟨same, by simpa using other⟩, ?_⟩
          simp only [waitSelection, targetFound, map_some, waitSelection.received, other,
            ne_eq, not_true_eq_false, if_false]
          cases targetProc.status <;> dsimp only
          all_goals
            cases process.waitpid.getKeyValue cmp kernel.pivot ⟨some pid, none⟩ <;> rfl
        · exact .inl ⟨by simp [other], .ECHILD, if_pos other⟩
    | procGroup pgid =>
      dsimp only
      cases scheme.groups.get? pgid with
      | none => exact .inl ⟨by simp, .ECHILD, rfl⟩
      | some group =>
        dsimp only [any_some]
        split
        next passes =>
          refine .inr ⟨process, rfl, passes, ?_⟩
          rw [waitSelection, waitSelection.received]
          cases process.waitpid.getKeyValue cmp kernel.pivot ⟨none, some pgid⟩ <;> rfl
        next fails => exact .inl ⟨fails, .ECHILD, rfl⟩

def reparent (currentPid : ProcessId) (scheme : ProcScheme) (child : ProcessId) : ProcScheme :=
  match scheme.get? child with
  | none => scheme
  | some process =>
    if child ≠ initPid ∧ process.ppid = currentPid then
      (scheme.set child { process with ppid := initPid, waitpid := .empty }).modify initPid
        fun init => { init with waitpid := init.waitpid.append cmp process.waitpid }
    else
      scheme

structure Adopted (scheme : ProcScheme) (currentPid child : ProcessId) (process : Process) :
    Prop where
  found : scheme.get? child = some process
  notInit : child ≠ initPid
  parent : process.ppid = currentPid
  get? : ∀ other, (reparent currentPid scheme child).get? other =
    if other = initPid then
      (scheme.get? initPid).map fun init =>
        { init with waitpid := init.waitpid.append cmp process.waitpid }
    else if other = child then some { process with ppid := initPid, waitpid := .empty }
    else scheme.get? other

variable {currentPid child : ProcessId}

theorem reparent_cases : ((∀ process, scheme.get? child = some process → child ≠ initPid →
        process.ppid ≠ currentPid) ∧ reparent currentPid scheme child = scheme) ∨
      ∃ process, scheme.Adopted currentPid child process := by
  unfold reparent
  split
  next missing =>
    refine .inl ⟨?_, rfl⟩
    intro process found
    rw [missing] at found
    cases found
  next process found =>
  split
  next isChild =>
    refine .inr ⟨process, found, isChild.1, isChild.2, ?_⟩
    intro other
    simp only [reparent, found]
    rw [if_pos isChild, get?_modify]
    by_cases isInit : other = initPid
    · have different : initPid ≠ child := fun equality => isChild.1 equality.symm
      simp [isInit, different]
    · simp [isInit]
  next notChild =>
  refine .inl ⟨?_, rfl⟩
  intro candidate candidateFound notInit sameParent
  cases found.symm.trans candidateFound
  exact notChild ⟨notInit, sameParent⟩

/-- What is found after a child was handed over: init with the map of the child
added to its own, the child with its new parent, or a process as it was. -/
inductive AfterReparent (scheme : ProcScheme) (currentPid child pid : ProcessId) :
    Process → Prop where
  | same {process : Process} (found : scheme.get? pid = some process) :
      AfterReparent scheme currentPid child pid process
  | adopter {init process : Process} (found : scheme.get? pid = some init)
      (childFound : scheme.get? child = some process) :
      AfterReparent scheme currentPid child pid
        { init with waitpid := init.waitpid.append cmp process.waitpid }
  | adopted {process : Process} (notInit : pid ≠ initPid) (found : scheme.get? pid = some process) :
      AfterReparent scheme currentPid child pid
        { process with ppid := initPid, waitpid := .empty }

theorem reparent_found {after} (found : (reparent currentPid scheme child).get? pid = some after) :
    AfterReparent scheme currentPid child pid after := by
  rcases reparent_cases with ⟨-, same⟩ | ⟨process, adopted⟩
  · rw [same] at found
    exact .same found
  rw [adopted.get?] at found
  split at found
  next isInit =>
    obtain ⟨init, initFound, rfl⟩ := map_eq_some_iff.mp found
    subst isInit
    exact .adopter initFound adopted.found
  split at found
  next notInit isChild =>
    cases found
    subst isChild
    exact .adopted notInit adopted.found
  · exact .same found

theorem reparent_frame : ∃ processes,
    reparent currentPid scheme child = { scheme with processes := processes } := by
  unfold reparent
  split
  · exact ⟨_, rfl⟩
  · split <;> exact ⟨_, rfl⟩

theorem groups_reparent (scheme : ProcScheme) :
    (reparent currentPid scheme child).groups = scheme.groups ∧
      (reparent currentPid scheme child).nextId = scheme.nextId := by
  obtain ⟨_, frame⟩ := reparent_frame
  rw [frame]
  exact ⟨rfl, rfl⟩

/-- Continue and hang up one member of a newly orphaned group. -/
def hangUp (kernel : Kernel) (state : Awakening) (pid : ProcessId) : Awakening :=
  match state.1.get? pid with
  | none => state
  | some process =>
    if process.status.isStopped then
      let continued := state.1.onSendSig kernel initPid (.proc pid) sigcont false
        .idempotent false state.2
      let hungUp := continued.scheme.onSendSig kernel initPid (.proc pid) sighup false
        .idempotent false continued.awoken
      (hungUp.scheme, hungUp.awoken)
    else
      state

/-- Treat one process group that the exit may have orphaned.  `before` is the
state before the children were handed over. -/
def releaseGroup (kernel : Kernel) (before : ProcScheme) (state : Awakening)
    (grp : ProcessId) : Awakening :=
  if (before.pgrpIsOrphaned grp).getD false = false ∧ (state.1.pgrpIsOrphaned grp).getD false then
    match state.1.groups.get? grp with
    | none => state
    | some group => group.processes.foldl (hangUp kernel) state
  else
    state

/-- The groups whose orphan test is repeated: those of the children of the
process and its own. -/
def affectedPgids (scheme : ProcScheme) (kernel : Kernel) (currentPid pgid : ProcessId) :
    List ProcessId :=
  (kernel.order.filterMap fun child =>
    match scheme.get? child with
    | none => none
    | some process =>
      if child ≠ initPid ∧ process.ppid = currentPid then some process.pgid else none)
    ++ [pgid]

def handOver (kernel : Kernel) (currentPid pgid : ProcessId) (state : Awakening) : Awakening :=
  match state.1.get? initPid with
  | none => state
  | some init =>
    let awoken := state.2 ++ init.waitpidWaiting
    let scheme := state.1.modify initPid fun init => { init with waitpidWaiting := [] }
    let affected := scheme.affectedPgids kernel currentPid pgid
    let given := kernel.order.foldl (reparent currentPid) scheme
    (kernel.groupOrder.filter fun grp => affected.contains grp).foldl
      (releaseGroup kernel scheme) (given, awoken)

def finishExit (scheme : ProcScheme) (kernel : Kernel) (awoken : List VirtualId)
    (currentPid ppid pgid : ProcessId) (signal : Option Nat) (status : Nat) : Awakening :=
  match scheme.get? ppid with
  | none => (scheme, awoken)
  | some _ =>
    let sent := scheme.onSendSig kernel currentPid (.proc ppid) sigchld false
      .idempotent false awoken
    let given := handOver kernel currentPid pgid (sent.scheme, sent.awoken)
    match given.1.get? ppid with
    | none => given
    | some parent =>
      given.1.recordStatus given.2 ppid parent currentPid pgid (.terminated signal status)

structure Work where
  scheme : ProcScheme
  states : Table VirtualId PendingState
  awoken : List VirtualId
  poll : Poll Response

def answer (tag : Option Nat) (result : Except Errno Nat) : Poll Response :=
  match tag with
  | some tag => .ready { tag := tag, result := result }
  | none => .pending

/-- Where a request without a tag drops its state, one with a tag leaves the
placeholder behind. -/
def settle (states : Table VirtualId PendingState) (reqId : VirtualId) (tag : Option Nat) :
    Table VirtualId PendingState :=
  match tag with
  | some _ => states.insert reqId .placeholder
  | none => states.erase reqId

def workOnExit (scheme : ProcScheme) (kernel : Kernel) (states : Table VirtualId PendingState)
    (awoken : List VirtualId) (reqId : VirtualId) (currentPid : ProcessId)
    (tag : Option Nat) : Work :=
  match scheme.get? currentPid with
  | none => ⟨scheme, settle states reqId tag, awoken, answer tag (.error .ESRCH)⟩
  | some process =>
    if process.threads.isEmpty then
      match process.status with
      | .exiting signal status =>
        let exited := scheme.set currentPid { process with status := .exited signal status }
        let finished := exited.finishExit kernel awoken currentPid process.ppid process.pgid
          signal status
        ⟨finished.1, states.erase reqId, finished.2, answer tag (.ok 0)⟩
      | .exited _ _ => ⟨scheme, settle states reqId tag, awoken, answer tag (.ok 0)⟩
      | _ => ⟨scheme, settle states reqId tag, awoken, answer tag (.error .ESRCH)⟩
    else
      ⟨scheme.set currentPid
          { process with awaitingThreadsTerm := process.awaitingThreadsTerm ++ [reqId] },
        states.insert reqId (.awaitingThreadsTermination currentPid tag), awoken, .pending⟩

def workOnWait (scheme : ProcScheme) (kernel : Kernel) (states : Table VirtualId PendingState)
    (awoken : List VirtualId) (reqId : VirtualId) (waiter : ProcessId) (target : WaitpidTarget)
    (flags : WaitFlags) (op : OpCall) : Work :=
  let waited := scheme.onWaitpid kernel waiter target flags reqId
  match waited.2 with
  | .ready (.ok (pid, status)) =>
    -- The status goes into the payload when that can hold an `i32`.
    ⟨waited.1, states.insert reqId .placeholder, awoken,
      .ready {
        tag := op.requestId
        result := .ok pid
        written := if op.aligned && op.payload.length ≥ 4 then .status status else .nothing
        waited := some (pid, status) }⟩
  | .ready (.error errno) =>
    ⟨waited.1, states.insert reqId .placeholder, awoken,
      .ready { tag := op.requestId, result := .error errno }⟩
  | .pending =>
    ⟨waited.1, states.insert reqId (.awaitingStatusChange waiter target flags op), awoken,
      .pending⟩

def workOn (scheme : ProcScheme) (kernel : Kernel) (states : Table VirtualId PendingState)
    (awoken : List VirtualId) (reqId : VirtualId) (state : PendingState) : Work :=
  match state with
  | .placeholder => ⟨scheme, states.insert reqId .placeholder, awoken, .pending⟩
  | .awaitingThreadsTermination currentPid tag =>
    scheme.workOnExit kernel states awoken reqId currentPid tag
  | .awaitingStatusChange waiter target flags op =>
    scheme.workOnWait kernel states awoken reqId waiter target flags op

/-- The exit status and signal in a raw status; `none` for an invalid signal. -/
def decodeStatus (status : Nat) : Option (Nat × Option Nat) :=
  if status &&& 0xff = status then
    some (status, none)
  else
    let sig := (status >>> 8) % 256
    if 1 ≤ sig ∧ sig ≤ 64 then some (0, some sig) else none

/-- `on_exit_start`.  `reqId` is a vacant entry of `states`. -/
def onExitStart (scheme : ProcScheme) (kernel : Kernel) (states : Table VirtualId PendingState)
    (awoken : List VirtualId) (reqId : VirtualId) (pid : ProcessId) (status : Nat)
    (tag : Option Nat) : Work :=
  let fail (errno : Errno) : Work := ⟨scheme, states, awoken, answer tag (.error errno)⟩
  match scheme.get? pid with
  | none => fail .EBADFD
  | some process =>
    match process.status with
    | .exiting _ _ => fail .EAGAIN
    | .exited _ _ => fail .ESRCH
    | _ =>
      match decodeStatus status with
      | none => fail .EINVAL
      | some (code, signal) =>
        let exiting := { process with status := .exiting signal code }
        let failed := process.threads.findSome? fun thread => kernel.statusWrite thread.rc
        match failed, tag with
        | some errno, some tag =>
          -- The status stays `Exiting`, and nothing waits for the threads.
          ⟨scheme.set pid exiting, states, awoken, answer (some tag) (.error errno)⟩
        | _, _ =>
          let exiting := if process.threads.isEmpty then exiting
            else { exiting with
              awaitingThreadsTerm := exiting.awaitingThreadsTerm ++ [reqId] }
          (scheme.set pid exiting).workOnExit kernel states awoken reqId pid tag

end ProcScheme

end EosBase.Procmgr
