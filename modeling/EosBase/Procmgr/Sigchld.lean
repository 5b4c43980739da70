import EosBase.Procmgr.Queues

/-!
# SIGCHLD after an exit

A process that exits sends SIGCHLD to its parent as any other process would, so the
message is refused where the child may not signal its parent.  Nothing else marks
SIGCHLD in this step unless a process is stopped: when its group is orphaned, init
continues it and tells its parent.
-/

namespace EosBase.Procmgr

open Option

namespace ProcScheme

variable {scheme : ProcScheme} {ppid pid currentPid : ProcessId} {mark : Bool} {kernel : Kernel}
  {killedSelf stopOrContinue : Bool} {state : Awakening}

/-- Whether SIGCHLD is pending in a process; where it is not, nothing is stopped. -/
structure Marked (ppid : ProcessId) (mark : Bool) (scheme : ProcScheme) : Prop where
  pending : (scheme.get? ppid).map (·.isPending (sigchld - 1)) = some mark
  running : mark = false → ∀ {pid process}, scheme.get? pid = some process →
    process.status.isStopped = false

namespace Marked

theorem set {before after} (marked : Marked ppid mark scheme)
    (found : scheme.get? pid = some before)
    (pending : pid = ppid → after.isPending (sigchld - 1) = before.isPending (sigchld - 1))
    (status : mark = false → before.status.isStopped = false → after.status.isStopped = false) :
    Marked ppid mark (scheme.set pid after) := by
  refine ⟨?_, fun unmarked other process present => ?_⟩
  · rw [get?_set]
    split
    next same =>
      subst same
      rw [← marked.pending, found, map_some, map_some, pending rfl]
    · exact marked.pending
  · rcases set_found present with ⟨rfl, rfl⟩ | ⟨-, old⟩
    · exact status unmarked (marked.running unmarked found)
    · exact marked.running unmarked old

theorem reparent {child : ProcessId} (marked : Marked ppid mark scheme) :
    Marked ppid mark (reparent currentPid scheme child) := by
  refine ⟨?_, fun unmarked other process found => ?_⟩
  · rcases reparent_cases with ⟨-, same⟩ | ⟨process, adopted⟩
    · rw [same, marked.pending]
    rw [adopted.get?, ← marked.pending]
    split
    next isInit => rw [isInit, map_map]; rfl
    split
    next isChild => rw [isChild, adopted.found]; rfl
    · rfl
  · cases reparent_found found with
    | same old => exact marked.running unmarked old
    | adopter old | adopted _ old => exact (marked.running unmarked old :)

/-- No signal takes a pending SIGCHLD back. -/
theorem sendSigTo {callerPid signal mode awoken} (marked : Marked ppid true scheme) :
    Marked ppid true (scheme.sendSigTo kernel callerPid (.proc pid) signal killedSelf mode
      stopOrContinue awoken).scheme := by
  rcases scheme.sendSigTo_cases kernel callerPid (.proc pid) signal killedSelf mode
    stopOrContinue awoken with ⟨_, failed, -⟩ |
    ⟨process, _, tried, -, found, -, -, attempted, result⟩
  · rwa [failed]
  have kept : Marked ppid true (scheme.set pid tried.target) := by
    refine marked.set found ?_ nofun
    rintro rfl
    have before := (congrArg (Option.map _) found).symm.trans marked.pending
    rcases attempted.isPending (sigchld - 1) with same | ⟨-, own⟩ | ⟨-, -, raised⟩
    · exact same
    · exact absurd own (by decide)
    · exact raised.trans (some.inj before).symm
  rw [result]
  rcases conclude_cases _ awoken pid tried.killedSelf with ⟨same, -⟩ |
    ⟨_, _, _, _, -, parentFound, recorded, -⟩
  · exact same ▸ kept
  · exact recorded ▸ kept.set parentFound (fun _ => rfl) nofun

section

variable (marked : Marked ppid mark state.1)

include marked

theorem hangUp :
    Marked ppid mark (hangUp kernel state pid).1 := by
  unfold ProcScheme.hangUp
  split
  · exact marked
  next process found =>
  split
  next stopped =>
    cases mark with
    | true =>
      have told : ∀ {scheme callerPid pid signal awoken}, Marked ppid true scheme →
          Marked ppid true (scheme.onSendSig kernel callerPid (.proc pid) signal false .idempotent
            false awoken).scheme := by
        intro scheme callerPid pid signal awoken marked
        unfold onSendSig
        dsimp only
        split
        · exact marked.sendSigTo
        · exact marked.sendSigTo.sendSigTo
      exact told (told marked)
    | false => cases (marked.running rfl found).symm.trans stopped
  · exact marked

theorem releaseGroup {before : ProcScheme} {grp : ProcessId} :
    Marked ppid mark (releaseGroup kernel before state grp).1 := by
  unfold ProcScheme.releaseGroup
  split
  · split
    · exact marked
    · exact List.foldlRecOn (motive := fun state : Awakening => Marked ppid mark state.1) _ _ marked
        fun _ marked _ _ => marked.hangUp
  · exact marked

theorem handOver {pgid : ProcessId} :
    Marked ppid mark (handOver kernel currentPid pgid state).1 := by
  unfold ProcScheme.handOver
  split
  · exact marked
  next init found =>
  dsimp only
  rw [modify_eq_set found]
  refine List.foldlRecOn (motive := fun state : Awakening => Marked ppid mark state.1) _ _ ?_
    fun _ marked _ _ => marked.releaseGroup
  refine List.foldlRecOn _ _ ?_ fun _ marked _ _ => reparent marked
  exact marked.set found (fun _ => rfl) fun _ => id

end

end Marked

theorem Attempted.sigchld_pending {callerPid caller target isSelf tried pctl}
    (attempted : Attempted kernel callerPid caller (.proc pid) target sigchld isSelf killedSelf
      .idempotent stopOrContinue tried) (live : target.status.isTerminating = false)
    (mapped : target.sigPctl = some pctl)
    (heeds : pctl.signalWillIgn sigchld stopOrContinue = false)
    (allowed : caller.euid = 0 ∨ caller.SharesUser target ∨ target.isPending (sigchld - 1) = true) :
    tried.target.isPending (sigchld - 1) = true := by
  cases attempted with
  | refused refused =>
    rcases allowed with root | (same | same) | pending
    · exact absurd root refused.1
    · exact absurd same.symm refused.2.1
    · exact absurd same.symm refused.2.2
    · exact pending
  | probed | killed | continued => contradiction
  | terminating terminating => cases live.symm.trans terminating
  | unmapped unmapped => cases mapped.symm.trans unmapped
  | spared stops | stopped _ _ stops => exact absurd rfl (stopping_ne stops).2.2
  | ignored same ignores =>
    cases mapped.symm.trans same
    cases heeds.symm.trans ignores
  | thread impossible => cases impossible
  | proc _ _ _ same =>
    cases mapped.symm.trans same
    simp only [Process.deliverProc]
    split
    next already =>
      rw [Process.isPending, mapped, any_some]
      by_contra absent
      have nothing : pctl.pending &&& sigBit sigchld = 0 := by
        apply BitVec.eq_of_getLsbD_eq
        intro bit small
        rw [BitVec.getLsbD_and, getLsbD_sigBit]
        by_cases own : bit = sigchld - 1 <;> simp_all
      simp [SigProcControl.isPending, nothing] at already
    · simp [Process.post, Process.isPending, SigProcControl.getLsbD_raise, sigchld]

end ProcScheme

open ProcScheme

/-- The parent has SIGCHLD pending after the exit if the child may signal it, or if it
was pending before; and only then while no process is stopped. -/
theorem exit_marks_sigchld {scheme : ProcScheme} {currentPid : ProcessId}
    {process parent : Process} {signal : Option Nat} {status : Nat} {pctl : SigProcControl}
    (kernel : Kernel) (states : Table VirtualId PendingState) (awoken : List VirtualId)
    (reqId : VirtualId) (tag : Option Nat) (found : scheme.get? currentPid = some process)
    (threads : process.threads.isEmpty = true) (exits : process.status = .exiting signal status)
    (parentFound : scheme.get? process.ppid = some parent)
    (live : parent.status.isTerminating = false) (mapped : parent.sigPctl = some pctl)
    (heeds : pctl.signalWillIgn sigchld false = false) :
    let told := ((scheme.workOnExit kernel states awoken reqId currentPid tag).scheme.get?
      process.ppid).any (·.isPending (sigchld - 1)) = true
    let allowed := process.euid = 0 ∨ process.SharesUser parent ∨
      parent.isPending (sigchld - 1) = true
    (allowed → told) ∧
      ((∀ {pid other}, scheme.get? pid = some other → other.status.isStopped = false) →
        told → allowed) := by
  intro told allowed
  have apart : process.ppid ≠ currentPid := by
    intro same
    rw [same, found] at parentFound
    cases parentFound
    rw [exits] at live
    cases live
  set exited := scheme.set currentPid { process with status := .exited signal status }
  have base : exited.get? process.ppid = some parent := by
    rw [get?_set, if_neg apart, parentFound]
  rcases exited.sendSigTo_cases kernel currentPid (.proc process.ppid) sigchld false .idempotent
    false awoken with ⟨_, -, impossible⟩ |
    ⟨_, _, tried, -, same, sameSender, isTried, attempted, result⟩
  · rw [KillTarget.pid, base, get?_set_self] at impossible
    simp [sigchld] at impossible
  cases base.symm.trans same
  cases (get?_set_self).symm.trans sameSender
  -- What the message to the parent leaves is what the step leaves.
  have finished : ∀ {mark}, Marked process.ppid mark (exited.set process.ppid tried.target) →
      ((scheme.workOnExit kernel states awoken reqId currentPid tag).scheme.get?
        process.ppid).any (·.isPending (sigchld - 1)) = mark := by
    intro mark marked
    rcases (exited.set process.ppid tried.target).conclude_cases awoken process.ppid
      tried.killedSelf with ⟨kept, -, noParent, -⟩ | ⟨_, _, _, _, notice, -⟩
    swap
    · rw [SendResult.notice?_of_isPlain (attempted.plain (by decide) (by decide)).2] at notice
      cases notice
    rw [← kept] at marked
    simp only [workOnExit, found, threads, exits, if_true]
    change ((exited.finishExit kernel awoken currentPid process.ppid process.pgid signal
      status).1.get? process.ppid).any _ = mark
    simp only [ProcScheme.finishExit, base, onSendSig, result, KillTarget.pid, noParent]
    set given := ProcScheme.handOver kernel currentPid process.pgid _
    have marked : Marked process.ppid mark given.1 := marked.handOver
    obtain ⟨after, afterFound, pending⟩ := map_eq_some_iff.mp marked.pending
    rw [afterFound]
    dsimp only [recordStatus]
    rw [get?_set_self]
    exact pending
  constructor
  · intro allowed
    refine finished ⟨?_, by simp⟩
    rw [get?_set_self, map_some, attempted.sigchld_pending live mapped heeds allowed]
  · intro running told
    by_contra refused
    simp only [allowed, not_or, Bool.not_eq_true] at refused
    have unchanged := congrArg Attempt.target (isTried.trans
      (exited.attempt_refused kernel currentPid _ _ _ _ _ _ refused.1 refused.2.1))
    rw [unchanged] at finished
    have unmarked : Marked process.ppid false scheme := by
      refine ⟨?_, fun _ => running⟩
      rw [parentFound, map_some, refused.2.2]
    have before := (unmarked.set found (fun same => absurd same.symm apart) fun _ _ => rfl).set base
      (fun _ => rfl) fun _ => id
    cases (finished before).symm.trans told

open Scenario

/-- Init has a signal page, and its child exits. -/
def exitRun (before : List Event) : List Event :=
  boot ++ [fork 1 2 102, call 5 1 .syncSigPctl 0 0] ++ before ++ [call 7 2 .exit 0 0] ++ rest ++
    [death 102]

theorem exit_marks_sigchld_root : ∃ manager child, procmgr.Reachable manager ∧
    manager.scheme.get? 2 = some child ∧
    ((manager.scheme.workOnExit (kernel 9 0) .empty [] (.kernelId 7) 2 none).scheme.get?
      child.ppid).any (·.isPending (sigchld - 1)) = true := by
  have reached := procmgr.reachable_replay (exitRun []) rfl
  exact ⟨_, _, reached, rfl, (exit_marks_sigchld (kernel 9 0) .empty [] (.kernelId 7) none rfl rfl
    rfl rfl rfl rfl rfl).1 (.inl rfl)⟩

/-- Init is not told of the exit of a child that gave up its privileges. -/
theorem exit_unmarked : ∃ manager child init, procmgr.Reachable manager ∧
    manager.scheme.get? 2 = some child ∧ child.status = .exiting none 0 ∧ child.ppid = 1 ∧
    manager.scheme.get? 1 = some init ∧ init.status = .possiblyRunnable ∧
    (init.sigPctl.any fun pctl => !pctl.signalWillIgn sigchld false) = true ∧
    let after := (manager.scheme.workOnExit (kernel 9 0) .empty [] (.kernelId 7) 2 none).scheme
    (after.get? 2).map Process.status = some (.exited none 0) ∧
      (after.get? 1).any (·.isPending (sigchld - 1)) = false := by
  have reached := procmgr.reachable_replay (exitRun [setIds 2 232 3]) rfl
  exact ⟨_, _, _, reached, rfl, rfl, rfl, rfl, rfl, rfl, rfl, rfl⟩

end EosBase.Procmgr
