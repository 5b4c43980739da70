import EosBase.Procmgr.Types
import Mathlib.Logic.Function.Basic

/-!
# Process manager: signals

`on_send_sig` and the calls built on it.  A write to a status handle that the
source follows by `expect` ends the process manager when it fails, so a step
that goes on has seen it succeed.
-/

namespace EosBase.Procmgr

open Redox Function

namespace SigProcControl

def raise (pctl : SigProcControl) (sig : Nat) : SigProcControl :=
  { pctl with pending := pctl.pending ||| sigBit sig }

def lower (pctl : SigProcControl) (sig : Nat) : SigProcControl :=
  { pctl with pending := pctl.pending &&& ~~~ sigBit sig }

def isPending (pctl : SigProcControl) (sig : Nat) : Bool :=
  pctl.pending &&& sigBit sig != 0

end SigProcControl

namespace Sigcontrol

def clear (tctl : Sigcontrol) (mask : BitVec 64) : Sigcontrol :=
  { tctl with word := update tctl.word 0 (tctl.word 0 &&& ~~~ mask) }

/-- Is the signal in the upper half of its word, the set of allowed signals? -/
def allows (tctl : Sigcontrol) (sigGroup sigIdx : Nat) : Bool :=
  (tctl.word sigGroup >>> 32) &&& (1#64 <<< sigIdx) != 0

def post (tctl : Sigcontrol) (sigGroup sigIdx : Nat) (sender : SenderInfo) : Sigcontrol where
  word := update tctl.word sigGroup (tctl.word sigGroup ||| (1#64 <<< sigIdx))
  senderInfos := update tctl.senderInfos sigIdx (some sender)

end Sigcontrol

def Thread.mapSigCtrl (thread : Thread) (f : Sigcontrol → Sigcontrol) : Thread :=
  { thread with sigCtrl := thread.sigCtrl.map f }

/-- `pgrp_is_orphaned`.  A member that no longer upgrades, or whose parent is
missing, does not count. -/
def ProcScheme.pgrpIsOrphaned (scheme : ProcScheme) (grp : ProcessId) : Option Bool :=
  (scheme.groups.get? grp).map fun group =>
    group.processes.all fun pid =>
      match scheme.get? pid with
      | none => true
      | some process =>
        match scheme.get? process.ppid with
        | none => true
        | some parent => parent.pgid == process.pgid || parent.sid != process.sid

inductive SendResult where
  | lacksPermission
  | succeeded
  | succeededSigchld (origSignal : Nat) (ppid pgid : ProcessId)
  | succeededSigcont (ppid pgid : ProcessId)
  | fullQ
  | invalid
  deriving DecidableEq

inductive ContextVerb where
  | stop
  | unstop
  | interrupt
  | forceKill
  deriving DecidableEq, Repr

structure StatusWrite where
  rc : Nat
  verb : ContextVerb
  deriving DecidableEq, Repr

/-- What the closure in `on_send_sig` leaves behind: its result, the target
process, the `killed_self` flag and what it wrote to the threads of the
target. -/
structure Attempt where
  result : SendResult
  target : Process
  killedSelf : Bool
  writes : List StatusWrite

def isConditionalStop (sig : Nat) : Bool :=
  sig == sigttin || sig == sigttou || sig == sigtstp

namespace Process

def unstop (process : Process) (pctl : SigProcControl) : Process :=
  { process with
    status := .possiblyRunnable
    sigPctl := some (if pctl.signalWillIgn sigcont false then pctl else pctl.raise sigcont)
    threads := process.threads.map fun thread =>
      thread.mapSigCtrl fun tctl =>
        tctl.clear (sigBit sigstop ||| sigBit sigttin ||| sigBit sigttou ||| sigBit sigtstp) }

/-- A process is stopped by `sig`.  Threads whose status handle refuses the
write are passed over. -/
def stop (process : Process) (kernel : Kernel) (sig : Nat) (pctl : SigProcControl) : Process :=
  { process with
    status := .stopped sig
    threads := process.threads.map fun thread =>
      match kernel.statusWrite thread.rc with
      | none => thread.mapSigCtrl fun tctl => tctl.clear (sigBit sigcont)
      | some _ => thread
    sigPctl := some (pctl.lower sigcont) }

def deliverThread (process : Process) (target : ThreadRef) (sender : SenderInfo) (sig : Nat)
    (isSelf killedSelf : Bool) : Attempt :=
  let sigGroup := (sig - 1) / 32
  let sigIdx := (sig - 1) % 32
  match (process.threads.find? fun thread => thread.rc == target.rc).bind Thread.sigCtrl with
  | none => ⟨.invalid, process, killedSelf, []⟩
  | some tctl =>
    let posted := tctl.post sigGroup sigIdx sender
    ⟨.succeeded, { process with
        threads := process.threads.map fun thread =>
          if thread.rc = target.rc then { thread with sigCtrl := some posted } else thread },
      killedSelf || (posted.allows sigGroup sigIdx && isSelf),
      if posted.allows sigGroup sigIdx then [⟨target.rc, .interrupt⟩] else []⟩

/-- Mark a signal pending for the process and interrupt the first thread that
allows it. -/
def post (process : Process) (pctl : SigProcControl) (sig : Nat)
    (isSelf killedSelf : Bool) : Attempt :=
  let sigGroup := (sig - 1) / 32
  let sigIdx := (sig - 1) % 32
  let interrupted := process.threads.find? fun thread =>
    match thread.sigCtrl with
    | none => false
    | some tctl => tctl.allows sigGroup sigIdx
  ⟨.succeeded, { process with sigPctl := some (pctl.raise sig) },
    killedSelf || (interrupted.isSome && isSelf),
    interrupted.toList.map fun thread => ⟨thread.rc, .interrupt⟩⟩

/-- `rtqs`, long enough to have a queue at `rtidx`. -/
def grownRtqs (process : Process) (rtidx : Nat) : List (List RtSigInfo) :=
  if rtidx ≥ process.rtqs.length then
    process.rtqs ++ List.replicate (rtidx + 1 - process.rtqs.length) []
  else
    process.rtqs

def deliverProc (process : Process) (pctl : SigProcControl) (sender : SenderInfo) (sig : Nat)
    (mode : KillMode) (isSelf killedSelf : Bool) : Attempt :=
  let sigGroup := (sig - 1) / 32
  let sigIdx := (sig - 1) % 32
  match mode with
  | .queued arg =>
    if sigGroup ≠ 1 then
      ⟨.invalid, process, killedSelf, []⟩
    else
      let rtqs := process.grownRtqs sigIdx
      let rtq := rtqs.getD sigIdx []
      if rtq.length ≥ 32 then
        ⟨.fullQ, { process with rtqs := rtqs }, killedSelf, []⟩
      else
        { process with rtqs := rtqs.set sigIdx (rtq ++ [arg]) }.post pctl sig
          isSelf killedSelf
  | .idempotent =>
    -- A signal that is already pending is merged with the earlier one.
    if pctl.isPending sig then
      ⟨.succeeded, process, killedSelf, []⟩
    else if sigGroup ≠ 0 then
      ⟨.invalid, process, killedSelf, []⟩
    else
      process.post
        { pctl with senderInfos := update pctl.senderInfos sigIdx (some sender) }
        sig isSelf killedSelf

end Process

namespace ProcScheme

/-- The closure of `on_send_sig`: it changes the target process and nothing
else. -/
def attempt (scheme : ProcScheme) (kernel : Kernel) (callerPid : ProcessId) (caller : Process)
    (target : KillTarget) (targetPid : ProcessId) (targetProc : Process) (signal : Nat)
    (killedSelf : Bool) (mode : KillMode) (stopOrContinue : Bool) : Attempt :=
  let isSelf := targetPid == callerPid
  if caller.euid ≠ 0 ∧ caller.euid ≠ targetProc.ruid ∧ caller.ruid ≠ targetProc.ruid then
    ⟨.lacksPermission, targetProc, killedSelf, []⟩
  else if signal = 0 then
    ⟨.succeeded, targetProc, killedSelf, []⟩
  else if targetProc.status.isTerminating then
    ⟨.succeeded, targetProc, killedSelf, []⟩
  else
    match targetProc.sigPctl with
    | none => ⟨.invalid, targetProc, killedSelf, []⟩
    | some pctl =>
      if signal = sigcont ∧ targetProc.status.isStopped then
        ⟨.succeededSigcont targetProc.ppid targetProc.pgid, targetProc.unstop pctl,
          killedSelf, targetProc.threads.map fun thread => ⟨thread.rc, .unstop⟩⟩
      else if signal = sigstop ∨ (isConditionalStop signal ∧ pctl.signalWillStop signal) then
        -- The terminal stop signals spare orphaned process groups.
        if isConditionalStop signal ∧ (scheme.pgrpIsOrphaned targetProc.pgid).getD true then
          ⟨.succeeded, targetProc, killedSelf, []⟩
        else
          ⟨.succeededSigchld signal targetProc.ppid targetProc.pgid,
            targetProc.stop kernel signal pctl, killedSelf,
            (targetProc.threads.filter fun thread => kernel.statusWrite thread.rc == none).map
              fun thread => ⟨thread.rc, .stop⟩⟩
      else if signal = sigkill then
        -- The kill reaches the contexts; exit follows from their death.
        ⟨.succeeded, targetProc, killedSelf || isSelf,
          targetProc.threads.map fun thread => ⟨thread.rc, .forceKill⟩⟩
      else if pctl.signalWillIgn signal stopOrContinue then
        ⟨.succeeded, targetProc, killedSelf, []⟩
      else
        match target with
        | .thread thread =>
          targetProc.deliverThread thread ⟨callerPid, caller.ruid⟩ signal isSelf killedSelf
        | .proc _ =>
          targetProc.deliverProc pctl ⟨callerPid, caller.ruid⟩ signal mode isSelf killedSelf

structure Sent where
  scheme : ProcScheme
  awoken : List VirtualId
  killedSelf : Bool
  result : Except Errno Unit
  /-- A parent that is still to get SIGCHLD. -/
  parent : Option ProcessId
  /-- What was written to the threads of which process. -/
  writes : List (ProcessId × StatusWrite)

def recordStatus (scheme : ProcScheme) (awoken : List VirtualId) (ppid : ProcessId)
    (parent : Process) (pid pgid : ProcessId) (status : WaitpidStatus) :
    ProcScheme × List VirtualId :=
  (scheme.set ppid { parent with
      waitpid := parent.waitpid.insert WaitpidKey.cmp ⟨some pid, some pgid⟩ (pid, status)
      waitpidWaiting := [] },
    awoken ++ parent.waitpidWaiting)

/-- The second half of `on_send_sig`: act on the result of the closure.  A
status change is recorded at the parent, which may then be owed a SIGCHLD. -/
def conclude (scheme : ProcScheme) (awoken : List VirtualId) (targetPid : ProcessId)
    (result : SendResult) (killedSelf : Bool) : Sent :=
  let finish (result : Except Errno Unit) : Sent :=
    ⟨scheme, awoken, killedSelf, result, none, []⟩
  let notify (ppid pgid : ProcessId) (status : WaitpidStatus) : Sent :=
    match scheme.get? ppid with
    | none => finish (.error .ESRCH)
    | some parent =>
      let recorded := scheme.recordStatus awoken ppid parent targetPid pgid status
      ⟨recorded.1, recorded.2, killedSelf, .ok (), if ppid ≠ initPid then some ppid else none, []⟩
  match result with
  | .lacksPermission => finish (.error .EPERM)
  | .succeeded => finish (.ok ())
  | .fullQ => finish (.error .EAGAIN)
  | .invalid => finish (.error .ESRCH)
  | .succeededSigchld origSignal ppid pgid => notify ppid pgid (.stopped origSignal)
  | .succeededSigcont ppid pgid => notify ppid pgid .continued

def sendSigTo (scheme : ProcScheme) (kernel : Kernel) (callerPid : ProcessId) (target : KillTarget)
    (signal : Nat) (killedSelf : Bool) (mode : KillMode) (stopOrContinue : Bool)
    (awoken : List VirtualId) : Sent :=
  let fail (errno : Errno) : Sent := ⟨scheme, awoken, killedSelf, .error errno, none, []⟩
  if signal > 64 then
    fail .EINVAL
  else
    match scheme.get? target.pid with
    | none => fail .ESRCH
    | some targetProc =>
      match scheme.get? callerPid with
      | none => fail .ESRCH
      | some caller =>
        let tried := scheme.attempt kernel callerPid caller target target.pid targetProc
          signal killedSelf mode stopOrContinue
        { (scheme.set target.pid tried.target).conclude awoken target.pid tried.result
            tried.killedSelf with
          writes := tried.writes.map fun write => (target.pid, write) }

/-- `on_send_sig`.  It calls itself to send SIGCHLD to the parent of a process
that stopped or continued; SIGCHLD does neither, so that call is the last one
(`sendSigTo_sigchld`). -/
def onSendSig (scheme : ProcScheme) (kernel : Kernel) (callerPid : ProcessId) (target : KillTarget)
    (signal : Nat) (killedSelf : Bool) (mode : KillMode) (stopOrContinue : Bool)
    (awoken : List VirtualId) : Sent :=
  let sent := scheme.sendSigTo kernel callerPid target signal killedSelf mode
    stopOrContinue awoken
  match sent.parent with
  | none => sent
  | some ppid =>
    let signalled := sent.scheme.sendSigTo kernel initPid (.proc ppid) sigchld
      sent.killedSelf .idempotent true sent.awoken
    -- An error of this call is logged and dropped.
    { signalled with
      result := sent.result, parent := none, writes := sent.writes ++ signalled.writes }

structure Killed where
  scheme : ProcScheme
  awoken : List VirtualId
  result : Except Errno Unit
  writes : List (ProcessId × StatusWrite)

def onKillThread (scheme : ProcScheme) (kernel : Kernel) (thread : Thread) (signal : Nat)
    (awoken : List VirtualId) : Killed :=
  let sent := scheme.onSendSig kernel thread.pid (.thread thread.downgrade) signal false
    .idempotent false awoken
  ⟨sent.scheme, sent.awoken, match sent.result with
    | .error errno => .error errno
    | .ok () => if sent.killedSelf then .error .ERESTART else .ok (),
    sent.writes⟩

structure KillLoop where
  scheme : ProcScheme
  awoken : List VirtualId
  killedSelf : Bool
  errOpt : Option Errno
  numSucceeded : Nat
  writes : List (ProcessId × StatusWrite)

def killStep (kernel : Kernel) (callerPid : ProcessId) (matchGrp : Option ProcessId) (signal : Nat)
    (mode : KillMode) (state : KillLoop) (pid : ProcessId) : KillLoop :=
  match state.scheme.get? pid with
  | none => state
  | some process =>
    if matchGrp.any fun grp => process.pgid != grp then
      state
    else
      let sent := state.scheme.onSendSig kernel callerPid (.proc pid) signal
        state.killedSelf mode false state.awoken
      match sent.result with
      | .ok () =>
        { state with
          scheme := sent.scheme, awoken := sent.awoken, killedSelf := sent.killedSelf
          numSucceeded := state.numSucceeded + 1, writes := state.writes ++ sent.writes }
      | .error errno =>
        { state with
          scheme := sent.scheme, awoken := sent.awoken, killedSelf := sent.killedSelf
          errOpt := some errno, writes := state.writes ++ sent.writes }

def killMany (scheme : ProcScheme) (kernel : Kernel) (callerPid : ProcessId)
    (matchGrp : Option ProcessId) (signal : Nat) (mode : KillMode)
    (awoken : List VirtualId) : Killed :=
  let final := kernel.order.foldl (killStep kernel callerPid matchGrp signal mode)
    ⟨scheme, awoken, false, none, 0, []⟩
  ⟨final.scheme, final.awoken, if final.numSucceeded = 0 then
      match final.errOpt with
      | some errno => .error errno
      | none => .error .ESRCH
    else if final.killedSelf then .error .ERESTART
    else .ok (),
    final.writes⟩

def onKill (scheme : ProcScheme) (kernel : Kernel) (callerPid : ProcessId) (target : ProcKillTarget)
    (signal : Nat) (mode : KillMode) (awoken : List VirtualId) : Killed :=
  match target with
  | .singleProc pid =>
    let sent := scheme.onSendSig kernel callerPid (.proc pid) signal false mode false awoken
    ⟨sent.scheme, sent.awoken, match sent.result with
      | .error errno => .error errno
      | .ok () => if sent.killedSelf then .error .ERESTART else .ok (),
      sent.writes⟩
  | .all => scheme.killMany kernel callerPid none signal mode awoken
  | .procGroup grp => scheme.killMany kernel callerPid (some grp) signal mode awoken
  | .thisGroup =>
    match scheme.get? callerPid with
    | none => ⟨scheme, awoken, .error .ESRCH, []⟩
    | some caller => scheme.killMany kernel callerPid (some caller.pgid) signal mode awoken

def onSyncSigtctl (scheme : ProcScheme) (kernel : Kernel) (thread : Thread) :
    ProcScheme × Except Errno Unit :=
  match kernel.threadPage with
  | .error errno => (scheme, .error errno)
  | .ok page =>
    (scheme.modify thread.pid fun process =>
      { process with
        threads := process.threads.map fun candidate =>
          if candidate.rc = thread.rc then { candidate with sigCtrl := some page }
          else candidate },
      .ok ())

def onSyncSigpctl (scheme : ProcScheme) (kernel : Kernel) (pid : ProcessId) :
    ProcScheme × Except Errno Unit :=
  match scheme.get? pid with
  | none => (scheme, .error .ESRCH)
  | some process =>
    if process.threads.isEmpty then
      (scheme, .error .EINVAL)
    else
      match kernel.procPage with
      | .error errno => (scheme, .error errno)
      | .ok page => (scheme.set pid { process with sigPctl := some page }, .ok ())

/-- The first four bytes of a payload as a native `u32`. -/
def readU32 : List UInt8 → Option Nat
  | b0 :: b1 :: b2 :: b3 :: _ =>
    some (b0.toNat + 256 * b1.toNat + 65536 * b2.toNat + 16777216 * b3.toNat)
  | _ => none

/-- `on_sigdeq`.  The dequeued argument is written over the payload. -/
def onSigdeq (scheme : ProcScheme) (pid : ProcessId) (payload : List UInt8) :
    ProcScheme × Except Errno RtSigInfo :=
  match readU32 payload with
  | none => (scheme, .error .EINVAL)
  | some sigIdx =>
    if payload.length < rtSigInfoSize then
      (scheme, .error .EINVAL)
    else if sigIdx ≥ 32 then
      (scheme, .error .EINVAL)
    else
      match scheme.get? pid with
      | none => (scheme, .error .ESRCH)
      | some process =>
        match process.sigPctl with
        | none => (scheme, .error .EBADF)
        | some pctl =>
          match process.rtqs[sigIdx]? with
          | none => (scheme, .error .EAGAIN)
          | some [] => (scheme, .error .EAGAIN)
          | some (front :: rest) =>
            (scheme.set pid { process with
                rtqs := process.rtqs.set sigIdx rest
                sigPctl := some (if rest.isEmpty then
                  { pctl with pending := pctl.pending &&& ~~~ (1#64 <<< (32 + sigIdx)) }
                  else pctl) },
              .ok front)

end ProcScheme

end EosBase.Procmgr
