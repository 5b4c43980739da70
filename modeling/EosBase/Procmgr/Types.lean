import EosBase.Lib.BTreeMap
import EosBase.Lib.Table
import EosBase.Redox.Syscall

/-!
# Process manager: data model

The state kept by `bootstrap/src/procmgr.rs`.

A process is owned by the `processes` map alone, and a process identifier is
given out once, so a weak pointer to a process is its identifier and upgrading
it is looking it up.  A thread is owned by the `threads` of its process alone.
Its file descriptor may be used again after it died, so a weak pointer to a
thread carries the allocation it points to.
-/

namespace EosBase.Procmgr

open Redox

abbrev ProcessId := Nat

def initPid : ProcessId := 1

inductive VirtualId where
  | kernelId (id : Nat)
  | internalId (id : Nat)
  deriving DecidableEq, Repr

inductive Poll (Value : Type) where
  | ready (value : Value)
  | pending
  deriving DecidableEq, Repr

def sighup : Nat := 1
def sigkill : Nat := 9
def sigchld : Nat := 17
def sigcont : Nat := 18
def sigstop : Nat := 19
def sigtstp : Nat := 20
def sigttin : Nat := 21
def sigttou : Nat := 22

def sigBit (sig : Nat) : BitVec 64 := 1#64 <<< (sig - 1)

structure SenderInfo where
  pid : ProcessId
  ruid : UInt32
  deriving DecidableEq, Repr

/-- A queued signal's argument, carried through as its bytes. -/
abbrev RtSigInfo := List UInt8

def rtSigInfoSize : Nat := 24

/-- The signal page that a process shares with its manager.  What its action
words say is read through `signal_will_ign` and `signal_will_stop`. -/
structure SigProcControl where
  pending : BitVec 64
  senderInfos : Nat → Option SenderInfo
  signalWillIgn : Nat → Bool → Bool
  signalWillStop : Nat → Bool

structure Sigcontrol where
  word : Nat → BitVec 64
  senderInfos : Nat → Option SenderInfo

/-- A weak pointer to a thread: its allocation, and its process, which never
changes. -/
structure ThreadRef where
  rc : Nat
  pid : ProcessId
  deriving DecidableEq, Repr

structure Thread where
  rc : Nat
  fd : Nat
  pid : ProcessId
  sigCtrl : Option Sigcontrol

def Thread.downgrade (thread : Thread) : ThreadRef := ⟨thread.rc, thread.pid⟩

inductive ProcessStatus where
  | possiblyRunnable
  | stopped (signal : Nat)
  | exiting (signal : Option Nat) (status : Nat)
  | exited (signal : Option Nat) (status : Nat)
  deriving DecidableEq, Repr

inductive WaitpidStatus where
  | continued
  | stopped (signal : Nat)
  | terminated (signal : Option Nat) (status : Nat)
  deriving DecidableEq, Repr

structure WaitpidKey where
  pid : Option ProcessId
  pgid : Option ProcessId
  deriving DecidableEq, Repr

def WaitpidKey.cmp (self other : WaitpidKey) : Ordering :=
  match self.pid, other.pid with
  | some selfPid, some otherPid => compare selfPid otherPid
  | selfPid, otherPid =>
    match self.pgid, other.pgid with
    | some selfPgid, some otherPgid => compare selfPgid otherPgid
    | selfPgid, otherPgid =>
      if selfPid.isSome then .gt
      else if otherPid.isSome then .lt
      else if selfPgid.isSome then .gt
      else if otherPgid.isSome then .lt
      else .eq

abbrev WaitpidMap := BTreeMap WaitpidKey (ProcessId × WaitpidStatus)

structure Process where
  threads : List Thread
  pid : ProcessId
  ppid : ProcessId
  pgid : ProcessId
  sid : ProcessId
  name : List UInt8
  prio : Nat
  ruid : UInt32
  euid : UInt32
  suid : UInt32
  rgid : UInt32
  egid : UInt32
  sgid : UInt32
  status : ProcessStatus
  disabledSetpgid : Bool
  awaitingThreadsTerm : List VirtualId
  waitpid : WaitpidMap
  waitpidWaiting : List VirtualId
  sigPctl : Option SigProcControl
  rtqs : List (List RtSigInfo)

structure Pgrp where
  processes : List ProcessId
  deriving DecidableEq, Repr

inductive Handle where
  | init
  | proc (pid : ProcessId)
  | thread (thread : ThreadRef)
  | ps
  | procCredsCapability
  | schemeRoot
  deriving DecidableEq, Repr

structure ProcScheme where
  processes : Table ProcessId Process
  groups : Table ProcessId Pgrp
  handles : Table Nat Handle
  threadLookup : Table Nat ThreadRef
  nextInternalId : Nat
  initClaimed : Bool
  nextId : ProcessId
  /-- The allocation that the next thread gets; no field of the source. -/
  nextRc : Nat

structure WaitFlags where
  wnohang : Bool
  wuntraced : Bool
  wcontinued : Bool
  deriving DecidableEq, Repr

inductive WaitpidTarget where
  | singleProc (pid : ProcessId)
  | procGroup (pgid : ProcessId)
  | anyChild
  | anyGroupMember
  deriving DecidableEq, Repr

inductive ProcKillTarget where
  | singleProc (pid : ProcessId)
  | procGroup (pgid : ProcessId)
  | thisGroup
  | all
  deriving DecidableEq, Repr

inductive KillMode where
  | idempotent
  | queued (info : RtSigInfo)

inductive KillTarget where
  | proc (pid : ProcessId)
  | thread (thread : ThreadRef)

def KillTarget.pid : KillTarget → ProcessId
  | .proc pid => pid
  | .thread target => target.pid

inductive ThreadCall where
  | syncSigTctl
  | signalThread
  deriving DecidableEq, Repr

inductive ProcCall where
  | exit | waitpid | waitpgid | setpgid | getsid | getppid | setsid | setResugid
  | kill | sigq | syncSigPctl | sigdeq | rename | disableSetpgid
  | getProcCredentials | setrens | setProcPriority | getProcPriority
  deriving DecidableEq, Repr

/-- A call request, with the parts of its metadata that `libredox::protocol`
decodes in decoded form: the first word as either kind of verb, the second as a
kill target, the third as wait flags. -/
structure OpCall where
  requestId : Nat
  fd : Nat
  threadCall : Option ThreadCall
  procCall : Option ProcCall
  arg1 : Nat
  arg2 : Nat
  killTarget : ProcKillTarget
  waitFlags : Option WaitFlags
  payload : List UInt8
  aligned : Bool

inductive Written where
  | nothing
  | status (status : Nat)
  | bytes (bytes : List UInt8)
  | credentials (pid pgid ppid : ProcessId) (ruid euid suid rgid egid sgid : UInt32)
  deriving DecidableEq, Repr

/-- A response to the kernel.  `waited` is what `on_waitpid` returned; its pid
is the result, and its status is written when the payload has room. -/
structure Response where
  tag : Nat
  result : Except Errno Nat
  written : Written := .nothing
  waited : Option (ProcessId × Nat) := none
  deriving DecidableEq

inductive PendingState where
  | awaitingStatusChange (waiter : ProcessId) (target : WaitpidTarget)
      (flags : WaitFlags) (op : OpCall)
  | awaitingThreadsTermination (pid : ProcessId) (tag : Option Nat)
  | placeholder

/-- What the process manager does not decide itself while it handles one event:
the iteration order of its hash maps, the shape of the B-tree it searches, the
slot `Slab` picks, and the answers of the kernel. -/
structure Kernel where
  order : List ProcessId
  groupOrder : List ProcessId
  pivot : Nat → Nat → Nat
  handleKey : Nat
  /-- Outcome of writing to the status handle of a thread, by allocation. -/
  statusWrite : Nat → Option Errno
  /-- Descriptor of a new context, or of one passed by the caller. -/
  newContext : Except Errno Nat
  /-- Result of mapping the signal page of a process. -/
  procPage : Except Errno SigProcControl
  /-- Result of mapping the signal page of a thread. -/
  threadPage : Except Errno Sigcontrol

def Pgrp.without (group : Pgrp) (pid : ProcessId) : Pgrp :=
  ⟨group.processes.filter fun member => member != pid⟩

/-- Take a member out of its group.  A group that becomes empty is removed. -/
def dropMember (groups : Table ProcessId Pgrp) (pgid pid : ProcessId) : Table ProcessId Pgrp :=
  match groups.get? pgid with
  | none => groups
  | some group =>
    if (group.without pid).processes.isEmpty then groups.erase pgid
    else groups.insert pgid (group.without pid)

variable {pid : ProcessId} {status : ProcessStatus}

theorem get?_dropMember {groups pgid grp} :
    (dropMember groups pgid pid).get? grp = if grp = pgid then
        (groups.get? grp).bind fun group =>
          if (group.without pid).processes.isEmpty then none else some (group.without pid)
      else groups.get? grp := by
  unfold dropMember
  split
  next missing =>
    split
    next equality =>
      subst equality
      simp [missing]
    · rfl
  next group found =>
  by_cases equality : grp = pgid
  · subst equality
    rw [if_pos rfl, found, Option.bind_some]
    split
    · exact groups.get?_erase_self grp
    · exact groups.get?_insert_self grp _
  · split
    · rw [groups.get?_erase, if_neg equality]
    · rw [groups.get?_insert, if_neg equality]

theorem dropMember_found {groups pgid grp after}
    (found : (dropMember groups pgid pid).get? grp = some after) :
    ∃ before, groups.get? grp = some before ∧
      ((grp = pgid ∧ after = before.without pid ∧ after.processes ≠ []) ∨
        (grp ≠ pgid ∧ after = before)) := by
  rw [get?_dropMember] at found
  split at found
  next equality =>
    obtain ⟨before, beforeFound, found⟩ := Option.bind_eq_some_iff.mp found
    split at found
    · cases found
    next nonempty =>
    cases found
    exact ⟨before, beforeFound, .inl ⟨equality, rfl, by simpa using nonempty⟩⟩
  next different => exact ⟨after, found, .inr ⟨different, rfl⟩⟩

namespace ProcScheme

/-- The scheme and the queue of awoken requests that most operations pass on. -/
abbrev Awakening := ProcScheme × List VirtualId

def get? (scheme : ProcScheme) (pid : ProcessId) : Option Process :=
  scheme.processes.get? pid

def set (scheme : ProcScheme) (pid : ProcessId) (process : Process) : ProcScheme :=
  { scheme with processes := scheme.processes.insert pid process }

def modify (scheme : ProcScheme) (pid : ProcessId) (f : Process → Process) : ProcScheme :=
  { scheme with processes := scheme.processes.modify pid f }

def upgrade (scheme : ProcScheme) (thread : ThreadRef) : Option Thread :=
  (scheme.get? thread.pid).bind fun process =>
    process.threads.find? fun candidate => candidate.rc == thread.rc

variable {scheme : ProcScheme} {process : Process}

@[simp]
theorem get?_set {other} : (scheme.set pid process).get? other =
      if other = pid then some process else scheme.get? other :=
  scheme.processes.get?_insert pid other process

theorem get?_set_self : (scheme.set pid process).get? pid = some process := by
  simp

theorem set_found {other after} (found : (scheme.set pid after).get? other = some process) :
    (other = pid ∧ process = after) ∨ (other ≠ pid ∧ scheme.get? other = some process) := by
  rw [get?_set] at found
  split at found
  next equality => exact .inl ⟨equality, (Option.some.inj found).symm⟩
  next different => exact .inr ⟨different, found⟩

theorem set_set {first second} : (scheme.set pid first).set pid second = scheme.set pid second := by
  simp only [set, Table.insert_insert]

@[simp]
theorem get?_modify (scheme : ProcScheme) (pid other : ProcessId) (f : Process → Process) :
    (scheme.modify pid f).get? other =
      if other = pid then (scheme.get? other).map f else scheme.get? other :=
  scheme.processes.get?_modify pid other f

end ProcScheme

namespace ProcessStatus

def isStopped : ProcessStatus → Bool
  | stopped _ => true
  | _ => false

def isExiting : ProcessStatus → Bool
  | exiting _ _ => true
  | _ => false

def isTerminating : ProcessStatus → Bool
  | exiting _ _ => true
  | exited _ _ => true
  | _ => false

section

variable (notExiting : ∀ signal code, status = .exiting signal code → False)

include notExiting

theorem isExiting_eq_false :
    status.isExiting = false := by
  cases status with
  | exiting signal code => exact (notExiting signal code rfl).elim
  | _ => rfl

theorem isTerminating_eq_false (notExited : ∀ signal code, status = .exited signal code → False) :
    status.isTerminating = false := by
  cases status with
  | exiting signal code => exact (notExiting signal code rfl).elim
  | exited signal code => exact (notExited signal code rfl).elim
  | _ => rfl

end

end ProcessStatus

end EosBase.Procmgr
