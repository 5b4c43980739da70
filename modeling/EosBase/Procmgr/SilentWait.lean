import EosBase.Procmgr.GroupWait

/-!
# Waits that report nothing

A wait takes its entry out of the map before it looks at its flags.
-/

namespace EosBase.Procmgr

open Redox Scenario ProcScheme

def Silent : Poll (Except Errno (ProcessId × Nat)) → Prop
  | .ready (.ok report) => report = (0, 0)
  | _ => True

def ProcScheme.waitpidOf (scheme : ProcScheme) (pid : ProcessId) : Option WaitpidMap :=
  (scheme.get? pid).map Process.waitpid

section

variable {manager : Manager} {thisPid wPid : ProcessId}

theorem ProcScheme.Takes.pid_ne_zero {target process status} (reached : procmgr.Reachable manager)
    (found : manager.scheme.get? thisPid = some process)
    (takes : manager.scheme.Takes thisPid target process wPid status) : wPid ≠ 0 := by
  cases takes with
  | entry holds _ => exact Manager.held_ne_zero reached found holds
  | child childFound _ _ _ _ =>
    exact Family.pid_ne_zero (Manager.orderly reached).older (family_parent childFound)

/-- A wait that reports nothing leaves the map as it was, and with WNOHANG returns,
exactly when it does not select a status that its flags do not ask for. -/
theorem silent_wait_keeps_iff (reached : procmgr.Reachable manager) (kernel : Kernel)
    (thisPid : ProcessId) (target : WaitpidTarget) (flags : WaitFlags) (reqId : VirtualId) :
    let waited := manager.scheme.onWaitpid kernel thisPid target flags reqId
    ((Silent waited.2 → waited.1.waitpidOf thisPid = manager.scheme.waitpidOf thisPid) ∧
      (flags.wnohang = true → waited.2 ≠ .pending)) ↔
      (manager.scheme.Admits thisPid target →
        ∀ process, manager.scheme.get? thisPid = some process →
          ∀ entry ∈ manager.scheme.waitSelection kernel process target,
            entry.2.2.requested flags = true) := by
  intro waited
  rcases manager.scheme.onWaitpid_cases kernel thisPid target flags reqId with
    ⟨refused, errno, failed⟩ | ⟨process, found, admits, received⟩
  · simp [waited, failed, refused]
  simp only [waited, received, receive, waitpidOf, found, admits,
    forall_const, Option.some.injEq, forall_eq']
  cases selected : manager.scheme.waitSelection kernel process target with
  | none =>
    by_cases noHang : flags.wnohang <;>
      simp [awaitStatus, modify_eq_set found, found, noHang]
  | some entry =>
    obtain ⟨key, wPid, status⟩ := entry
    obtain ⟨takes, remains⟩ := waitSelection_takes
      (Manager.wellKeyed reached thisPid process found) admits selected
    have notZero := takes.pid_ne_zero reached found
    simp only [takeStatus, grimReaper_eq, reported, modify_eq_set found]
    by_cases asked : status.requested flags = true
    · simp [Silent, asked, notZero]
    refine iff_of_false ?_ fun asks => asked (asks _ rfl)
    rintro ⟨keeps, -⟩
    cases takes with
    | entry holds _ =>
      have live : status.isTerminated = false := by
        cases status with
        | terminated => exact absurd rfl asked
        | _ => rfl
      simp only [asked, live, Bool.false_eq_true, if_false, get?_set_self,
        Option.map_some, Option.some.injEq] at keeps
      rw [← keeps trivial, remains] at holds
      exact absurd rfl holds.1
    | child _ _ _ _ report =>
      rw [report] at asked
      exact absurd rfl asked

end

def stoppedRun : List Event :=
  boot ++ [fork 1 2 102, call 5 2 .syncSigPctl 0 0, call 8 1 .kill 2 sigstop]

theorem silent_wait_keeps_untraced : ∃ manager, procmgr.Reachable manager ∧
    let waited := manager.scheme.onWaitpid (kernel 9 0) initPid .anyChild ⟨true, true, false⟩
      (.kernelId 7)
    waited.2 = .ready (.ok (2, 0x137f)) ∧ waited.2 ≠ .pending := by
  have reached := procmgr.reachable_replay stoppedRun rfl
  refine ⟨_, reached, rfl, ?_⟩
  refine ((silent_wait_keeps_iff reached _ _ _ _ _).mpr ?_).2 rfl
  rintro - process ⟨⟩ entry ⟨⟩
  rfl

/-- A wait that does not ask for stopped children drops the entry of one, and hangs. -/
theorem silent_wait_consumes : ∃ manager, procmgr.Reachable manager ∧
    let waited := manager.scheme.onWaitpid (kernel 9 0) initPid .anyChild ⟨true, false, false⟩
      (.kernelId 7)
    waited.2 = .pending ∧ waited.1.waitpidOf initPid ≠ manager.scheme.waitpidOf initPid := by
  have reached := procmgr.reachable_replay stoppedRun rfl
  refine ⟨_, reached, rfl, ?_⟩
  intro same
  cases same

end EosBase.Procmgr
