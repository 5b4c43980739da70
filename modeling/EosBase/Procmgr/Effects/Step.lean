import EosBase.Procmgr.Effects.Jobs
import EosBase.Procmgr.Effects.Wait

/-!
# The edits of one step of the event loop

What an event asks for is read off the state before it, and a policy restricts
it there.  Under the policy every step is made of edits that the policy allows.
-/

namespace EosBase.Procmgr

open Option ProcScheme

namespace Manager

def dupTarget (manager : Manager) : Event → Option (ProcessId × List Char)
  | .request (.dup _ fd buf) _ =>
    match manager.scheme.handles.get? fd with
    | some (.proc pid) => some (pid, buf)
    | _ => none
  | _ => none

def setpgidTarget (manager : Manager) : Event → Option (ProcessId × ProcessId)
  | .request (.call op) _ =>
    match manager.scheme.handles.get? op.fd, op.procCall with
    | some (.proc fdPid), some .setpgid =>
      let targetPid := orDefault op.arg1 fdPid
      let newPgid := orDefault op.arg2 targetPid
      if newPgid ≠ 2 ^ 64 - 1 ∧
          manager.scheme.setpgidChecks fdPid targetPid newPgid = .ok true then
        some (targetPid, newPgid)
      else none
    | _, _ => none
  | _ => none

def exitTarget (manager : Manager) : Event → Option (ProcessId × Nat)
  | .threadEvent data status _ =>
    match (manager.scheme.threadLookup.get? data).bind manager.scheme.upgrade,
        deathStatus status with
    | some thread, some raw => some (thread.pid, raw)
    | _, _ => none
  | .request (.call op) _ =>
    match manager.scheme.handles.get? op.fd, op.procCall with
    | some (.proc pid), some .exit => some (pid, op.arg1 % 65536)
    | _, _ => none
  | _ => none

/-- The process whose exit an event completes: its record is evaluated with no
thread left, its last thread dies, or it exits without threads. -/
def completesExit (manager : Manager) : Event → Option ProcessId
  | .wake _ =>
    match manager.awoken.head?.bind manager.states.get? with
    | some (.awaitingThreadsTermination pid _) =>
      if (manager.scheme.get? pid).any fun process =>
          process.threads.isEmpty && process.status.isExiting then some pid else none
    | _ => none
  | .threadEvent data status _ =>
    match (manager.scheme.threadLookup.get? data).bind manager.scheme.upgrade,
        deathStatus status with
    | some thread, some _ =>
      if (manager.scheme.get? thread.pid).any fun process =>
          (process.dropThread thread.rc).threads.isEmpty &&
            !process.status.isTerminating then some thread.pid else none
    | _, _ => none
  | .request (.call op) _ =>
    match manager.scheme.handles.get? op.fd, op.procCall with
    | some (.proc pid), some .exit =>
      if (decodeStatus (op.arg1 % 65536)).isSome &&
          (manager.scheme.get? pid).any fun process =>
            process.threads.isEmpty && !process.status.isTerminating then some pid
      else none
    | _, _ => none
  | _ => none

end Manager

structure Policy.Allows (policy : Policy) (manager : Manager) (event : Event) : Prop where
  newThread : ∀ pid process,
    manager.dupTarget event = some (pid, ['n', 'e', 'w', '-', 't', 'h', 'r', 'e', 'a', 'd']) →
    manager.scheme.get? pid = some process → policy.newThread process
  fork : ∀ pid parent, manager.dupTarget event = some (pid, ['f', 'o', 'r', 'k']) →
    manager.scheme.get? pid = some parent → policy.fork pid parent
  regroup : ∀ pid pgid, manager.setpgidTarget event = some (pid, pgid) →
    pgid = pid ∨ policy.regroup manager.scheme pid pgid
  exit : ∀ pid raw, manager.exitTarget event = some (pid, raw) → policy.exit pid raw
  complete : ∀ pid, manager.completesExit event = some pid →
    policy.complete manager.scheme pid

instance (policy : Policy) [DecidablePred policy.newThread]
    [∀ pid process, Decidable (policy.fork pid process)]
    [∀ scheme pid pgid, Decidable (policy.regroup scheme pid pgid)]
    [∀ pid raw, Decidable (policy.exit pid raw)]
    [∀ scheme pid, Decidable (policy.complete scheme pid)] (manager : Manager) (event : Event) :
    Decidable (policy.Allows manager event) :=
  decidable_of_iff
    ((∀ target ∈ manager.dupTarget event,
        target.2 = ['n', 'e', 'w', '-', 't', 'h', 'r', 'e', 'a', 'd'] →
        ∀ process ∈ manager.scheme.get? target.1, policy.newThread process) ∧
      (∀ target ∈ manager.dupTarget event, target.2 = ['f', 'o', 'r', 'k'] →
        ∀ process ∈ manager.scheme.get? target.1, policy.fork target.1 process) ∧
      (∀ target ∈ manager.setpgidTarget event, target.2 = target.1 ∨
        policy.regroup manager.scheme target.1 target.2) ∧
      (∀ target ∈ manager.exitTarget event, policy.exit target.1 target.2) ∧
      ∀ pid ∈ manager.completesExit event, policy.complete manager.scheme pid)
    (by
      constructor
      · rintro ⟨newThread, fork, regroup, exit, complete⟩
        exact ⟨fun pid process target found => newThread _ target rfl process found,
          fun pid parent target found => fork _ target rfl parent found,
          fun pid pgid target => regroup _ target, fun pid raw target => exit _ target, complete⟩
      · rintro ⟨newThread, fork, regroup, exit, complete⟩
        refine ⟨?_, ?_, ?_, ?_, complete⟩
        · rintro ⟨pid, buf⟩ target rfl process found
          exact newThread pid process target found
        · rintro ⟨pid, buf⟩ target rfl parent found
          exact fork pid parent target found
        · rintro ⟨pid, pgid⟩ target
          exact regroup pid pgid target
        · rintro ⟨pid, raw⟩ target
          exact exit pid raw target)

variable {event : Event} {policy : Policy} {scheme : ProcScheme} {kernel : Kernel}

theorem Policy.free_allows {manager} : Policy.free.Allows manager event :=
  ⟨fun _ _ _ _ => trivial, fun _ _ _ _ => trivial, fun _ _ _ => .inr trivial,
    fun _ _ _ => trivial, fun _ _ => trivial⟩

namespace ProcScheme

theorem onOpenat_edits {fd path readOnly uid awoken} :
    Ends (fun opened => Edits policy [.handles] (scheme, awoken) (opened.1, awoken))
      (scheme.onOpenat kernel fd path readOnly uid) := by
  have insert : ∀ (handle : Handle) (claimed : Bool), Edits policy [.handles] (scheme, awoken)
      ({ scheme with
        handles := scheme.handles.insert kernel.handleKey handle
        initClaimed := claimed }, awoken) :=
    fun handle claimed => .single (.handles _ claimed) (by decide)
  simp only [onOpenat]
  repeat' split
  all_goals first
    | trivial
    | exact .refl _
    | exact insert _ _

theorem onDupProc_edits {buf pid awoken}
    (newThreadAllowed : buf = ['n', 'e', 'w', '-', 't', 'h', 'r', 'e', 'a', 'd'] →
      ∀ process, scheme.get? pid = some process → policy.newThread process)
    (forkAllowed : buf = ['f', 'o', 'r', 'k'] →
      ∀ parent, scheme.get? pid = some parent → policy.fork pid parent) :
    Edits policy [.fork, .newThread, .handles, .internal] (scheme, awoken)
      ((scheme.onDupProc kernel pid buf).1, awoken) := by
  obtain ⟨made, source, result⟩ := onDupProc_cases kernel pid buf
  have edits : Edits policy [.fork, .newThread, .handles, .internal] (scheme, awoken)
      (made, awoken) := by
    rcases source with rfl | ⟨command, rfl⟩ | ⟨command, rfl⟩
    · exact .refl _
    · exact (fork_edits (forkAllowed command)).mono (by decide)
    · exact (newThread_edits (newThreadAllowed command)).mono (by decide)
  rcases result with same | ⟨handle, _, same⟩
  · rw [same]
    exact edits
  · rw [same]
    exact edits.trans (.single (.handles _ made.initClaimed) (by decide))

def callKinds : List Kind :=
  [.page, .touch, .creds, .record, .drain, .startExit, .awaitThreads, .regroup, .setSid,
    .wait, .complete]

theorem onProcCall_edits {states op awoken fdPid verb} (covers : kernel.Covers scheme)
    (regroupAllowed : verb = .setpgid → orDefault op.arg2 (orDefault op.arg1 fdPid) ≠ 2 ^ 64 - 1 →
      scheme.setpgidChecks fdPid (orDefault op.arg1 fdPid)
        (orDefault op.arg2 (orDefault op.arg1 fdPid)) = .ok true →
      orDefault op.arg2 (orDefault op.arg1 fdPid) = orDefault op.arg1 fdPid ∨
        policy.regroup scheme (orDefault op.arg1 fdPid)
          (orDefault op.arg2 (orDefault op.arg1 fdPid)))
    (exitAllowed : verb = .exit → policy.exit fdPid (op.arg1 % 65536))
    (completeAllowed : verb = .exit → ∀ process, scheme.get? fdPid = some process →
      process.threads = [] → process.status.isTerminating = false →
      (decodeStatus (op.arg1 % 65536)).isSome → policy.complete scheme fdPid) :
    Ends (fun work => Edits policy callKinds (scheme, awoken) (work.scheme, work.awoken))
      (scheme.onProcCall kernel states awoken fdPid verb op) := by
  cases verb with
  | exit =>
    exact (onExitStart_edits states awoken _ _ covers (exitAllowed rfl)
      (completeAllowed rfl)).mono (by decide)
  | waitpid | waitpgid =>
    simp only [onProcCall]
    split
    · exact .refl _
    · exact (workOnWait_edits).mono (by decide)
  | setpgid =>
    simp only [onProcCall]
    split
    · exact .refl _
    next noQuery => exact (onSetpgid_edits (regroupAllowed rfl noQuery)).mono (by decide)
  | getsid | getppid | getProcCredentials | setrens | getProcPriority => exact .refl _
  | setsid => exact (onSetsid_edits).mono (by decide)
  | setResugid => exact .map ((onSetresugid_edits).imp fun edits => edits.mono (by decide))
  | kill =>
    simp only [onProcCall]
    split
    · exact .refl _
    · exact (scheme.onKill_edits kernel).mono (by decide)
  | sigq =>
    simp only [onProcCall]
    split
    · exact .refl _
    split
    · exact .refl _
    · exact (scheme.onKill_edits kernel).mono (by decide)
  | syncSigPctl => exact (onSyncSigpctl_edits).mono (by decide)
  | sigdeq =>
    have taken : Edits policy callKinds (scheme, awoken) _ :=
      (onSigdeq_edits fdPid op.payload).mono (by decide)
    simp only [onProcCall]
    split
    next equality =>
      rw [equality] at taken
      exact taken
    next equality =>
    rw [equality] at taken
    exact taken
  | rename => exact .map ((onProcRename_edits).imp fun edits => edits.mono (by decide))
  | disableSetpgid => exact (onDisableSetpgid_edits).mono (by decide)
  | setProcPriority => exact (onSetprocprio_edits).mono (by decide)

theorem onThreadCall_edits {states op} {awoken : List VirtualId} {thread : ThreadRef} :
    let work := scheme.onThreadCall kernel states awoken thread op
    Edits policy callKinds (scheme, awoken) (work.scheme, work.awoken) := by
  intro work
  simp only [work, onThreadCall]
  split
  · exact .refl _
  split
  · exact .refl _
  · exact (onSyncSigtctl_edits).mono (by decide)
  · exact (scheme.onSendSig_edits kernel ..).mono (by decide)

theorem takeInternalId_edits {kinds awoken} (allowed : Kind.internal ∈ kinds) :
    Edits policy kinds (scheme, awoken) (scheme.takeInternalId, awoken) :=
  internal_edits allowed rfl rfl rfl rfl le_rfl (Nat.le_succ _)

end ProcScheme

variable {manager : Manager} {kernel : Kernel}

namespace Manager

def requestKinds : Request → List Kind
  | .openAt _ _ _ _ _ => [.handles]
  | .dup _ _ _ => [.fork, .newThread, .handles, .internal]
  | .call _ => callKinds
  | .query _ => []
  | .cancellation _ => [.internal]
  | .onClose _ => [.handles]
  | .sendFd _ _ => [.registerInit, .handles, .internal]

def wakeKinds : List Kind := [.awaitThreads, .complete, .wait]

def deathKinds : List Kind := [.threadDeath, .startExit, .awaitThreads, .complete, .internal]

def eventKinds : Event → List Kind
  | .wake _ => wakeKinds
  | .request request _ => requestKinds request
  | .threadEvent _ _ _ => deathKinds
  | .userStore _ _ _ => [.page]
  | .appendAwoken | .drained | .socketEvent | .wouldBlock => []

def stepKinds : List Kind :=
  [.page, .touch, .creds, .record, .drain, .newThread, .startExit, .awaitThreads,
    .threadDeath, .fork, .registerInit, .regroup, .setSid, .wait, .complete, .handles, .internal]

theorem eventKinds_subset : eventKinds event ⊆ stepKinds := by
  cases event with
  | wake kernel => exact (by decide : wakeKinds ⊆ stepKinds)
  | threadEvent data status kernel => exact (by decide : deathKinds ⊆ stepKinds)
  | userStore pid procPage threadPage => exact (by decide : [Kind.page] ⊆ stepKinds)
  | request request kernel =>
    cases request with
    | call op => exact (by decide : callKinds ⊆ stepKinds)
    | openAt | onClose => exact (by decide : [Kind.handles] ⊆ stepKinds)
    | dup _ _ _ => exact (by decide : [Kind.fork, .newThread, .handles, .internal] ⊆ stepKinds)
    | sendFd _ _ => exact (by decide : [Kind.registerInit, .handles, .internal] ⊆ stepKinds)
    | query _ => exact List.nil_subset _
    | cancellation _ => exact (by decide : [Kind.internal] ⊆ stepKinds)
  | appendAwoken | drained | socketEvent | wouldBlock => exact List.nil_subset _

def queue (manager : Manager) : Event → List VirtualId
  | .wake _ => manager.newAwoken
  | _ => manager.awoken

theorem onCall_edits {states op} (covers : kernel.Covers manager.scheme)
    (allowed : policy.Allows manager (.request (.call op) kernel)) :
    Ends (fun work => Edits policy callKinds (manager.scheme, manager.awoken)
      (work.scheme, work.awoken)) (manager.scheme.onCall kernel states manager.awoken op) := by
  unfold onCall
  split
  · trivial
  · exact .refl _
  · exact onThreadCall_edits
  next fdPid opened =>
    split
    · exact .refl _
    next verb named =>
    refine onProcCall_edits covers ?_ ?_ ?_
    · rintro rfl noQuery checks
      refine allowed.regroup _ _ ?_
      simp only [setpgidTarget, opened, named]
      rw [if_pos ⟨noQuery, checks⟩]
    · rintro rfl
      refine allowed.exit _ _ ?_
      simp only [exitTarget, opened, named]
    · rintro rfl process found threadless live decoded
      refine allowed.complete fdPid ?_
      simp [completesExit, opened, named, found, threadless, live, decoded]
  · exact .refl _
  · split
    · split
      · exact .refl _
      · exact .refl _
    · exact .refl _
  · exact .refl _

theorem onDup_edits {buf requestId fd}
    (allowed : policy.Allows manager (.request (.dup requestId fd buf) kernel)) :
    Ends (fun made => Edits policy [.fork, .newThread, .handles, .internal]
      (manager.scheme, manager.awoken) (made.1, manager.awoken))
      (manager.scheme.onDup kernel fd buf) := by
  unfold onDup
  split
  · trivial
  next pid opened =>
    exact onDupProc_edits (fun command process found => allowed.newThread pid process
        (by simp only [dupTarget, opened, command]) found)
      (fun command parent found => allowed.fork pid parent
        (by simp only [dupTarget, opened, command]) found)
  · split
    · exact .refl _
    · exact .refl _
  · exact .refl _

def Blank (scheme : ProcScheme) : Prop :=
  (∀ pid, scheme.get? pid = none) ∧ ∀ grp, scheme.groups.get? grp = none

theorem cancel_edits {manager : Manager} {id} :
    Edits policy [.internal] (manager.scheme, manager.awoken)
      ((manager.cancel id).1.scheme, manager.awoken) ∧
    manager.awoken ⊆ (manager.cancel id).1.awoken := by
  simp only [cancel]
  split
  · exact ⟨.refl _, fun _ member => member⟩
  · exact ⟨takeInternalId_edits (by decide), List.subset_append_left _ _⟩
  · exact ⟨.refl _, fun _ member => member⟩
  · exact ⟨.refl _, fun _ member => member⟩

theorem handleScheme_edits {request} (covers : kernel.Covers manager.scheme)
    (blank : ∀ id, manager.scheme.handles.get? id = some .init → Blank manager.scheme)
    (allowed : policy.Allows manager (.request request kernel)) :
    Ends (fun handled => ∃ awoken, Edits policy (requestKinds request)
        (manager.scheme, manager.awoken) (handled.1.scheme, awoken) ∧ awoken ⊆ handled.1.awoken)
      (manager.handleScheme kernel request) := by
  have unmoved : ∀ {scheme}, Edits policy (requestKinds request) (manager.scheme, manager.awoken)
      (scheme, manager.awoken) → ∃ awoken, Edits policy (requestKinds request)
        (manager.scheme, manager.awoken) (scheme, awoken) ∧ awoken ⊆ manager.awoken :=
    fun edits => ⟨_, edits, fun _ member => member⟩
  cases request with
  | openAt requestId fd path readOnly uid => exact .map ((onOpenat_edits).imp unmoved)
  | dup requestId fd buf => exact .map ((onDup_edits allowed).imp unmoved)
  | call op =>
    exact .map ((onCall_edits covers allowed).imp fun edits =>
      ⟨_, edits, fun _ member => member⟩)
  | query requestId => exact unmoved (.refl _)
  | cancellation id => exact ⟨manager.awoken, cancel_edits⟩
  | onClose id =>
    exact unmoved (.single (.handles _ manager.scheme.initClaimed) (List.mem_singleton_self _))
  | sendFd requestId id => exact .map ((onSendfd_edits (blank id)).imp unmoved)

theorem wake_edits {id rest}
    (queued : manager.awoken = id :: rest) (covers : kernel.Covers manager.scheme)
    (allowed : policy.Allows manager (.wake kernel)) :
    Edits policy wakeKinds (manager.scheme, manager.newAwoken)
      ((manager.wake kernel id rest).1.scheme, (manager.wake kernel id rest).1.newAwoken) := by
  unfold wake
  split
  · exact .refl _
  next state pending =>
  cases state with
  | placeholder => exact .refl _
  | awaitingStatusChange waiter target flags op =>
    exact (workOnWait_edits).mono (by decide)
  | awaitingThreadsTermination pid tag =>
    refine (workOnExit_edits covers ?_).mono (by decide)
    intro process found threadless exiting
    refine allowed.complete pid ?_
    simp [completesExit, queued, pending, found, threadless, exiting]

theorem threadDied_edits {data : Nat} {thread : Thread} {process : Process}
    {status : Nat} (found : manager.scheme.get? thread.pid = some process)
    (covers : kernel.Covers manager.scheme) (starts : policy.exit thread.pid status)
    (allowed : (process.dropThread thread.rc).threads = [] →
      process.status.isTerminating = false → policy.complete manager.scheme thread.pid) :
    let died := (manager.threadDied kernel data thread process status).1
    Edits policy deathKinds (manager.scheme, manager.awoken) (died.scheme, died.awoken) := by
  intro died
  have forgotten : Edits policy deathKinds (manager.scheme, manager.awoken) ({ manager.scheme with
        threadLookup := manager.scheme.threadLookup.erase data }, manager.awoken) :=
    internal_edits (by decide) rfl rfl rfl rfl le_rfl le_rfl
  simp only [died, threadDied]
  split
  · exact forgotten.trans (.process found (.threadDeathExiting thread.rc) (by decide))
  next notExiting =>
  have live := ProcessStatus.isExiting_eq_false notExiting
  have removed : Edits policy deathKinds (manager.scheme, manager.awoken)
      (manager.scheme.buried data thread.pid (process.dropThread thread.rc), manager.awoken) :=
    forgotten.trans
      (set_edits found (.threadDeath thread.rc live) (by decide))
  split
  next threadless =>
    have numbered := removed.trans (takeInternalId_edits (by decide))
    split
    · exact numbered
    refine numbered.trans (Edits.mono (onExitStart_edits manager.states
      manager.awoken _ none ?_ starts ?_) (by decide))
    · exact covers.set found (process.dropThread thread.rc)
    · intro after afterFound _ live _
      have same : after = process.dropThread thread.rc :=
        some.inj (afterFound.symm.trans get?_set_self)
      subst same
      have alike : process.Alike (process.dropThread thread.rc) := ⟨⟨rfl, rfl, rfl⟩, rfl, rfl⟩
      refine policy.complete_alike ?_ thread.pid (allowed (by simpa using threadless) live)
      exact fun other => ProcScheme.Alike.set found alike other
  · exact removed

theorem userStore_edits {pid awoken procPage threadPage} : Edits policy [.page] (scheme, awoken)
      (userStore scheme pid procPage threadPage, awoken) := by
  refine modify_edits (by decide : Kind.page ∈ _) ?_
  intro process _
  refine .page (.edit ?_ (.inl rfl)) rfl
  simp [Function.comp_def, Thread.ident_mapSigCtrl]

theorem step_edits {output manager'}
    (blank : ∀ id, manager.scheme.handles.get? id = some .init → Blank manager.scheme)
    (allowed : policy.Allows manager event)
    (stepped : manager.step event = some (manager', output)) :
    ∃ awoken,
      Edits policy (eventKinds event) (manager.scheme, manager.queue event)
        (manager'.scheme, awoken) ∧
      awoken ⊆ manager'.queue event := by
  cases event with
  | appendAwoken =>
    simp only [step] at stepped
    split at stepped
    next guard =>
      cases stepped
      exact ⟨manager.awoken, .refl _, by simp [guard.2.1]⟩
    · cases stepped
  | wake kernel =>
    obtain ⟨admits, id, rest, queued, same⟩ := of_step_wake stepped
    have woken := wake_edits queued admits.covers allowed
    rw [same] at woken
    exact ⟨manager'.newAwoken, woken, fun _ member => member⟩
  | drained | socketEvent | wouldBlock =>
    simp only [step] at stepped
    split at stepped
    · cases stepped
      exact ⟨manager.awoken, .refl _, fun _ member => member⟩
    · cases stepped
  | request request kernel =>
    obtain ⟨admits, handled⟩ := of_step_request stepped
    exact (handleScheme_edits admits.covers blank allowed).of_eq handled
  | threadEvent data status kernel =>
    obtain ⟨admits, noticed⟩ := of_step_threadEvent stepped
    simp only [onThreadEvent] at noticed
    split at noticed
    · cases noticed
      exact ⟨manager.awoken, .refl _, fun _ member => member⟩
    next thread upgraded =>
    split at noticed
    next process raw found death =>
      have died := @threadDied_edits policy { manager with phase := .draining } kernel data
        thread process raw found admits.covers ?_ ?_
      · rw [noticed] at died
        exact ⟨manager'.awoken, died, fun _ member => member⟩
      · refine allowed.exit _ _ ?_
        simp only [exitTarget, upgraded, death]
      · intro threadless live
        refine allowed.complete thread.pid ?_
        simp only [completesExit, upgraded, death, found]
        simp [threadless, live]
    · cases noticed
      exact ⟨manager.awoken, .refl _, fun _ member => member⟩
  | userStore pid procPage threadPage =>
    cases stepped
    exact ⟨manager.awoken, userStore_edits, fun _ member => member⟩

end Manager

end EosBase.Procmgr
