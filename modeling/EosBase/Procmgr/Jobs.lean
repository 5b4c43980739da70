import EosBase.Procmgr.Types

/-!
# Process manager: creating and arranging processes

`on_sendfd`, `fork`, `new_thread`, process groups, sessions, credentials and
the other calls that read or set fields of one process.
-/

namespace EosBase.Procmgr

open Redox

namespace ProcScheme

def initProcess (thread : Thread) : Process where
  threads := [thread]
  pid := initPid
  ppid := initPid
  pgid := initPid
  sid := initPid
  name := [91, 105, 110, 105, 116, 93]
  prio := 20
  ruid := 0
  euid := 0
  suid := 0
  rgid := 0
  egid := 0
  sgid := 0
  status := .possiblyRunnable
  disabledSetpgid := false
  awaitingThreadsTerm := []
  waitpid := .empty
  waitpidWaiting := []
  sigPctl := none
  rtqs := []

def withInit (scheme : ProcScheme) (thread : Thread) : ProcScheme :=
  { scheme with
    groups := scheme.groups.insert initPid ⟨[initPid]⟩
    processes := scheme.processes.insert initPid (initProcess thread) }

variable {thread : Thread} {other : ProcessId} {scheme : ProcScheme} {pid grp : ProcessId}

@[simp] theorem get?_withInit :
    (scheme.withInit thread).get? other =
      if other = initPid then some (initProcess thread) else scheme.get? other :=
  scheme.processes.get?_insert initPid other _

theorem withInit_found {process} (noProcess : ∀ pid, scheme.get? pid = none)
    (found : (scheme.withInit thread).get? pid = some process) :
    pid = initPid ∧ process = initProcess thread := by
  rw [get?_withInit] at found
  split at found
  next equality => exact ⟨equality, (Option.some.inj found).symm⟩
  · rw [noProcess] at found
    cases found

/-- `on_sendfd` for the handle `id`; `none` when there is no such handle. -/
def onSendfd (scheme : ProcScheme) (kernel : Kernel) (id : Nat) :
    Option (ProcScheme × Except Errno Nat) :=
  match scheme.handles.get? id with
  | none => none
  | some .init =>
    match kernel.newContext with
    | .error errno => some (scheme, .error errno)
    | .ok fd =>
      let thread : Thread := ⟨scheme.nextRc, fd, initPid, none⟩
      some
        ({ scheme.withInit thread with
          threadLookup := scheme.threadLookup.insert fd thread.downgrade
          nextRc := scheme.nextRc + 1
          handles := scheme.handles.insert id (.proc initPid) },
          .ok 0)
  | some _ => some (scheme, .error .EBADF)

def forkedProcess (parent : Process) (parentPid childPid : ProcessId) (thread : Thread) :
    Process where
  threads := [thread]
  pid := childPid
  ppid := parentPid
  pgid := parent.pgid
  sid := parent.sid
  name := parent.name
  prio := parent.prio
  ruid := parent.ruid
  euid := parent.euid
  suid := parent.suid
  rgid := parent.rgid
  egid := parent.egid
  sgid := parent.sgid
  status := .possiblyRunnable
  disabledSetpgid := false
  awaitingThreadsTerm := []
  waitpid := .empty
  waitpidWaiting := []
  sigPctl := none
  rtqs := []

def forked (scheme : ProcScheme) (parentPid : ProcessId) (parent : Process)
    (thread : Thread) : ProcScheme :=
  { scheme with
    nextId := scheme.nextId + 1
    groups := scheme.groups.modify parent.pgid fun group =>
      ⟨group.processes ++ [scheme.nextId]⟩
    processes := scheme.processes.insert scheme.nextId
      (forkedProcess parent parentPid scheme.nextId thread) }

@[simp]
theorem get?_forked (scheme : ProcScheme) (parentPid : ProcessId) (parent : Process)
    (thread : Thread) (other : ProcessId) :
    (scheme.forked parentPid parent thread).get? other =
      if other = scheme.nextId then some (forkedProcess parent parentPid scheme.nextId thread)
      else scheme.get? other :=
  scheme.processes.get?_insert scheme.nextId other _

theorem groups_forked {parentPid parent} : (scheme.forked parentPid parent thread).groups.get? grp =
      if grp = parent.pgid then
        (scheme.groups.get? grp).map fun group => ⟨group.processes ++ [scheme.nextId]⟩
      else scheme.groups.get? grp :=
  scheme.groups.get?_modify parent.pgid grp _

/-- `fork`.  The identifier is used up even when the fork fails. -/
def fork (scheme : ProcScheme) (kernel : Kernel) (parentPid : ProcessId) :
    ProcScheme × Except Errno ProcessId :=
  let childPid := scheme.nextId
  match scheme.get? parentPid with
  | none => ({ scheme with nextId := scheme.nextId + 1 }, .error .EBADFD)
  | some parent =>
    match kernel.newContext with
    | .error errno => ({ scheme with nextId := scheme.nextId + 1 }, .error errno)
    | .ok fd =>
      let thread : Thread := ⟨scheme.nextRc, fd, childPid, none⟩
      ({ scheme.forked parentPid parent thread with
        threadLookup := scheme.threadLookup.insert fd thread.downgrade
        nextRc := scheme.nextRc + 1 },
        .ok childPid)

def newThread (scheme : ProcScheme) (kernel : Kernel) (pid : ProcessId) :
    ProcScheme × Except Errno ThreadRef :=
  match scheme.get? pid with
  | none => (scheme, .error .EBADFD)
  | some process =>
    match kernel.newContext with
    | .error errno => (scheme, .error errno)
    | .ok fd =>
      let thread : Thread := ⟨scheme.nextRc, fd, pid, none⟩
      ({ scheme with
        processes := scheme.processes.insert pid
          { process with threads := process.threads ++ [thread] }
        threadLookup := scheme.threadLookup.insert fd thread.downgrade
        nextRc := scheme.nextRc + 1 },
        .ok thread.downgrade)

def onGetpgid (scheme : ProcScheme) (callerPid targetPid : ProcessId) : Except Errno ProcessId :=
  match scheme.get? callerPid, scheme.get? targetPid with
  | some caller, some target =>
    if caller.sid ≠ target.sid ∧ caller.euid ≠ 0 then .error .EPERM else .ok target.pgid
  | _, _ => .error .ESRCH

def onGetsid (scheme : ProcScheme) (callerPid reqPid : ProcessId) : Except Errno ProcessId :=
  match scheme.get? callerPid, scheme.get? reqPid with
  | some caller, some requested =>
    if caller.sid ≠ requested.sid ∧ caller.euid ≠ 0 then .error .EPERM
    else .ok requested.sid
  | _, _ => .error .ESRCH

def onGetppid (scheme : ProcScheme) (callerPid : ProcessId) : Except Errno ProcessId :=
  match scheme.get? callerPid with
  | none => .error .ESRCH
  | some caller => .ok caller.ppid

structure Regrouped where
  scheme : ProcScheme
  awoken : List VirtualId
  result : Except Errno Unit

def wakeParent (scheme : ProcScheme) (parent : Option ProcessId) (awoken : List VirtualId) :
    Awakening :=
  match parent with
  | none => (scheme, awoken)
  | some ppid =>
    match scheme.get? ppid with
    | none => (scheme, awoken)
    | some parent =>
      (scheme.set ppid { parent with waitpidWaiting := [] }, awoken ++ parent.waitpidWaiting)

/-- Move a process from its group to another one, which may be new. -/
def regrouped (scheme : ProcScheme) (pid oldPgid newPgid : ProcessId) : ProcScheme :=
  let groups := dropMember scheme.groups oldPgid pid
  let newGroup := ((groups.get? newPgid).map Pgrp.processes).getD []
  { scheme with groups := groups.insert newPgid ⟨newGroup ++ [pid]⟩ }.modify pid
    fun process => { process with pgid := newPgid }

variable {oldPgid newPgid : ProcessId}

@[simp]
theorem get?_regrouped : (scheme.regrouped pid oldPgid newPgid).get? other =
      if other = pid then (scheme.get? other).map fun process => { process with pgid := newPgid }
      else scheme.get? other := by
  simp only [regrouped, get?_modify]
  rfl

theorem groups_regrouped (changes : oldPgid ≠ newPgid) :
    (scheme.regrouped pid oldPgid newPgid).groups.get? grp =
      if grp = newPgid then
        some ⟨((scheme.groups.get? grp).map Pgrp.processes).getD [] ++ [pid]⟩
      else (dropMember scheme.groups oldPgid pid).get? grp := by
  simp only [regrouped, modify, Table.get?_insert]
  split
  next equality =>
    subst equality
    rw [get?_dropMember, if_neg (Ne.symm changes)]
  · rfl

/-- `set_pgid`.  Both callers have checked that the group changes.  The waiters
of `parent` wake up, since a wait by group may now have no child left. -/
def setPgid (scheme : ProcScheme) (pid : ProcessId) (process : Process) (parent : Option ProcessId)
    (newPgid : ProcessId) (awoken : List VirtualId) : Regrouped :=
  let woken := scheme.wakeParent parent awoken
  match woken.1.groups.get? process.pgid with
  | none => ⟨woken.1, woken.2, .error .ESRCH⟩
  | some _ => ⟨woken.1.regrouped pid process.pgid newPgid, woken.2, .ok ()⟩

def onSetsid (scheme : ProcScheme) (callerPid : ProcessId) (awoken : List VirtualId) : Regrouped :=
  let fail (errno : Errno) : Regrouped := ⟨scheme, awoken, .error errno⟩
  if scheme.processes.any fun pid process => pid != callerPid && process.pgid == callerPid then
    fail .EPERM
  else
    match scheme.get? callerPid with
    | none => fail .ESRCH
    | some caller =>
      if caller.ppid = callerPid then
        fail .ESRCH
      else if caller.pgid = callerPid then
        fail .EPERM
      else
        let moved := scheme.setPgid callerPid caller (some caller.ppid) callerPid awoken
        match moved.result with
        | .error errno => { moved with result := .error errno }
        | .ok () =>
          { moved with
            scheme := moved.scheme.modify callerPid fun caller =>
              { caller with sid := callerPid } }

/-- The checks of `on_setpgid` before it moves the process.  `ok false` is the
early success for a process that is in the group already. -/
def setpgidChecks (scheme : ProcScheme) (callerPid targetPid newPgid : ProcessId) :
    Except Errno Bool :=
  match scheme.get? callerPid with
  | none => .error .ESRCH
  | some caller =>
    match scheme.get? targetPid with
    | none => .error .ESRCH
    | some process =>
      if process.ppid ≠ callerPid ∧ targetPid ≠ callerPid then .error .ESRCH
      else if process.ppid ≠ targetPid ∧ (scheme.get? process.ppid).isNone then .error .ESRCH
      else if process.sid = targetPid then .error .EPERM
      else if caller.sid ≠ process.sid then .error .EPERM
      else if newPgid ≠ targetPid ∧ scheme.groups.contains newPgid = false then .error .EPERM
      else if process.ppid = callerPid ∧ process.disabledSetpgid then .error .EACCES
      else .ok (process.pgid != newPgid)

def onSetpgid (scheme : ProcScheme) (callerPid targetPid newPgid : ProcessId)
    (awoken : List VirtualId) : Regrouped :=
  match scheme.setpgidChecks callerPid targetPid newPgid with
  | .error errno => ⟨scheme, awoken, .error errno⟩
  | .ok false => ⟨scheme, awoken, .ok ()⟩
  | .ok true =>
    match scheme.get? targetPid with
    | none => ⟨scheme, awoken, .error .ESRCH⟩
    | some process =>
      scheme.setPgid targetPid process
        (if process.ppid = targetPid then none else some process.ppid) newPgid awoken

def u32Words : List UInt8 → List UInt32
  | b0 :: b1 :: b2 :: b3 :: rest =>
    UInt32.ofNat (b0.toNat + 256 * b1.toNat + 65536 * b2.toNat + 16777216 * b3.toNat) ::
      u32Words rest
  | _ => []

/-- An identifier argument: all ones leaves the old one in place. -/
def newId (raw : UInt32) : Option UInt32 :=
  if raw = 0xffffffff then none else some raw

/-- `on_setresugid`; `none` when the payload is misaligned, which panics. -/
def onSetresugid (scheme : ProcScheme) (pid : ProcessId) (rawBuf : List UInt8)
    (aligned : Bool) : Option (ProcScheme × Except Errno Unit) :=
  if aligned = false then
    none
  else
    match (u32Words rawBuf).map newId with
    | [newRuid, newEuid, newSuid, newRgid, newEgid, newSgid] =>
      match scheme.get? pid with
      | none => some (scheme, .error .ESRCH)
      | some process =>
        if process.euid ≠ 0 ∧ ¬ ([newRuid, newEuid, newSuid].filterMap id).all
            (fun id => [process.ruid, process.euid, process.suid].contains id) then
          some (scheme, .error .EPERM)
        else if process.euid ≠ 0 ∧ ¬ ([newRgid, newEgid, newSgid].filterMap id).all
            (fun id => [process.rgid, process.egid, process.sgid].contains id) then
          some (scheme, .error .EPERM)
        else
          some
            (scheme.set pid { process with
                ruid := newRuid.getD process.ruid
                euid := newEuid.getD process.euid
                suid := newSuid.getD process.suid
                rgid := newRgid.getD process.rgid
                egid := newEgid.getD process.egid
                sgid := newSgid.getD process.sgid },
              .ok ())
    | _ => some (scheme, .error .EINVAL)

def procMetaSize : Nat := 44

def readProcessMetadata (scheme : ProcScheme) (pid : ProcessId) (buf : List UInt8)
    (aligned : Bool) : Except Errno Written :=
  match scheme.get? pid with
  | none => .error .ESRCH
  | some process =>
    if aligned = false ∨ buf.length < procMetaSize then
      .error .EBADF
    else
      .ok (.credentials pid process.pgid process.ppid process.ruid process.euid process.suid
        process.rgid process.egid process.sgid)

def nameCapac : Nat := 32

/-- `on_proc_rename`; `none` when the cut falls inside a character, which
panics. -/
def onProcRename (scheme : ProcScheme) (pid : ProcessId) (newNameRaw : List UInt8) :
    Option (ProcScheme × Except Errno Unit) :=
  let newName := newNameRaw.takeWhile fun byte => byte != 0
  if ByteArray.validateUTF8 ⟨newName.toArray⟩ then
    match scheme.get? pid with
    | none => some (scheme, .error .ESRCH)
    | some process =>
      -- A character starts at the cut unless the byte there continues one.
      match newName[nameCapac]? with
      | some byte =>
        if byte &&& 0xc0 = 0x80 then none
        else some (scheme.set pid { process with name := newName.take nameCapac }, .ok ())
      | none => some (scheme.set pid { process with name := newName }, .ok ())
  else
    some (scheme, .error .EINVAL)

/-- The rename returns.  It refuses a text that is not UTF-8, and names a process
that is there after a start of any other text. -/
def Renames (scheme : ProcScheme) (pid : ProcessId) (newNameRaw : List UInt8) : Prop :=
  let text := newNameRaw.takeWhile fun byte => byte != 0
  ∃ renamed, scheme.onProcRename pid newNameRaw = some renamed ∧
    (¬ Utf8 text → renamed = (scheme, .error .EINVAL)) ∧
    (Utf8 text → ∀ process, scheme.get? pid = some process → ∃ name, name <+: text ∧
      name.length ≤ nameCapac ∧ Utf8 name ∧
      renamed = (scheme.set pid { process with name := name }, .ok ()))

/-- The text of a name goes on, after the bytes that are kept, inside a
character. -/
def CutInside (text : List UInt8) : Prop :=
  ∃ byte, text[nameCapac]? = some byte ∧ byte &&& 0xc0 = 0x80

theorem onProcRename_renames_iff (scheme : ProcScheme) (pid : ProcessId) (newNameRaw : List UInt8) :
    Renames scheme pid newNameRaw ↔
      ((scheme.get? pid).isSome → Utf8 (newNameRaw.takeWhile fun byte => byte != 0) →
        ¬ CutInside (newNameRaw.takeWhile fun byte => byte != 0)) := by
  unfold Renames onProcRename
  generalize newNameRaw.takeWhile (fun byte => byte != 0) = text
  simp only [ByteArray.validateUTF8_eq_true_iff]
  by_cases valid : Utf8 text
  case neg => simp [valid]
  cases found : scheme.get? pid with
  | none => simp [valid]
  | some process =>
    cases at32 : text[nameCapac]? with
    | none =>
      have short := List.getElem?_eq_none_iff.1 at32
      simpa [valid, CutInside, at32] using ⟨text, List.prefix_rfl, short, valid, rfl⟩
    | some byte =>
      by_cases inside : byte &&& 0xc0 = 0x80
      · simp [valid, CutInside, at32, inside]
      · have kept : Utf8 (text.take nameCapac) := valid.take (by grind)
        simpa [valid, CutInside, at32, inside] using
          ⟨text.take nameCapac, List.take_prefix _ _, by simp, kept, rfl⟩

/-- Thirty-one letters and a character of two bytes. -/
theorem onProcRename_cuts_character :
    ¬ Renames (withInit ⟨.empty, .empty, .empty, .empty, 1, false, 2, 0⟩ ⟨0, 0, initPid, none⟩)
      initPid (List.replicate 31 97 ++ [0xc3, 0xa9]) := by
  rintro ⟨renamed, returned, -⟩
  have returns := Option.isSome_of_eq_some returned
  revert returns
  decide +kernel

def onSetprocprio (scheme : ProcScheme) (callerPid targetPid : ProcessId) (newPrio : Nat) :
    ProcScheme × Except Errno Unit :=
  if newPrio ≥ 40 then
    (scheme, .error .EINVAL)
  else
    match scheme.get? callerPid with
    | none => (scheme, .error .ESRCH)
    | some caller =>
      match scheme.get? targetPid with
      | none => (scheme, .error .ESRCH)
      | some target =>
        if caller.euid ≠ 0 ∧ caller.euid ≠ target.euid then
          (scheme, .error .EPERM)
        else
          (scheme.set targetPid { target with prio := newPrio }, .ok ())

def onGetprocprio (scheme : ProcScheme) (targetPid : ProcessId) : Except Errno Nat :=
  match scheme.get? targetPid with
  | none => .error .ESRCH
  | some target => .ok target.prio

def onDisableSetpgid (scheme : ProcScheme) (pid : ProcessId) : ProcScheme × Except Errno Unit :=
  match scheme.get? pid with
  | none => (scheme, .error .ESRCH)
  | some process => (scheme.set pid { process with disabledSetpgid := true }, .ok ())

end ProcScheme

end EosBase.Procmgr
