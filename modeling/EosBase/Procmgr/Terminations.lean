import EosBase.Procmgr.Fate
import EosBase.Procmgr.Pending
import EosBase.Procmgr.Reports

/-!
# Terminations over whole runs

Under the policy that keeps the reports of exits in place, the fate of a process
is decided once, and it is reported once: the wait that returns it removes the
process, whose identifier is not used again.
-/

namespace EosBase.Procmgr

open ProcScheme Scenario WaitpidStatus Manager List Option

theorem encode_stopped_mod {signal} : (stopped signal).encode % 128 = 127 := by
  have low : (signal <<< 8) % 2 ^ 7 = 0 := by
    omega
  have split := @Nat.or_mod_two_pow 0x7f (signal <<< 8) 7
  rw [low] at split
  exact split

variable {signal : Option Nat}

theorem decodeStatus_bounds {raw code} (decoded : decodeStatus raw = some (code, signal)) :
    code < 256 ∧ signal.getD 0 ≤ 64 := by
  simp only [decodeStatus] at decoded
  split at decoded
  next small =>
    cases decoded
    refine ⟨?_, Nat.zero_le _⟩
    rw [← small]
    exact lt_of_le_of_lt Nat.and_le_right (by decide)
  · split at decoded
    next bounds =>
      cases decoded
      exact ⟨by decide, bounds.2⟩
    · cases decoded

theorem encode_terminated {code} (small : signal.getD 0 ≤ 64) :
    (terminated signal code).encode % 128 = signal.getD 0 ∧
      (terminated signal code).encode / 256 = code := by
  have sum : (terminated signal code).encode = 256 * code + signal.getD 0 := by
    simp only [encode]
    rw [Nat.or_comm, ← Nat.shiftLeft_add_eq_or_of_lt (by omega), Nat.shiftLeft_eq]
    omega
  omega

def waitReport (output : Option Response) : Option (ProcessId × Nat) :=
  output.bind Response.waited

theorem waitReport_poll {poll : Poll Response} : waitReport (match poll with
      | .ready response => some response
      | .pending => none) = poll.waited := by
  cases poll with
  | ready => rfl
  | pending => rfl

variable {pid : ProcessId} {manager manager' : Manager} {event : Event} {scheme : ProcScheme}

namespace ProcScheme

theorem waited_workOnWait {report states awoken kernel op reqId waiter target flags}
    (waited : (scheme.workOnWait kernel states awoken reqId waiter target flags op).poll.waited =
      some report) : scheme.onWaitpid kernel waiter target flags reqId =
      ((scheme.workOnWait kernel states awoken reqId waiter target flags op).scheme,
        .ready (.ok report)) := by
  simp only [workOnWait] at waited ⊢
  split at waited
  next pid status equality =>
    cases waited
    exact Prod.ext rfl equality
  · cases waited
  · cases waited

end ProcScheme

namespace Manager

theorem waitReport_onThreadEvent (manager : Manager) (kernel : Kernel) (data : Nat)
    (status : ContextStatus) : waitReport (manager.onThreadEvent kernel data status).2 = none := by
  unfold onThreadEvent
  split
  · rfl
  split
  · simp only [threadDied]
    split
    · rfl
    split
    · split
      · rfl
      · exact (waitReport_poll).trans exitWork_onExitStart.waited
    · rfl
  · rfl

theorem waits_of_report {report output} (stepped : manager.step event = some (manager', output))
    (told : waitReport output = some report) :
    ∃ kernel waiter target flags reqId,
      manager.scheme.onWaitpid kernel waiter target flags reqId =
        (manager'.scheme, .ready (.ok report)) := by
  cases event with
  | appendAwoken | drained | socketEvent | wouldBlock =>
    simp only [step] at stepped
    split at stepped <;> cases stepped
    cases told
  | userStore =>
    cases stepped
    cases told
  | wake kernel =>
    obtain ⟨_, _, _, _, woken⟩ := of_step_wake stepped
    simp only [wake] at woken
    split at woken
    · cases woken
      cases told
    next state pending =>
    cases woken
    replace told := (waitReport_poll).symm.trans told
    cases state with
    | placeholder => cases told
    | awaitingThreadsTermination pid tag =>
      cases exitWork_workOnExit.waited.symm.trans told
    | awaitingStatusChange waiter target flags op =>
      exact ⟨kernel, waiter, target, flags, _, waited_workOnWait told⟩
  | threadEvent data status kernel =>
    have silent := waitReport_onThreadEvent { manager with phase := .draining } kernel data status
    rw [(of_step_threadEvent stepped).2] at silent
    cases silent.symm.trans told
  | request request kernel =>
    have handled := (of_step_request stepped).2
    cases request with
    | call op =>
      obtain ⟨work, called, done⟩ := map_eq_some_iff.mp handled
      cases done
      replace told := (waitReport_poll).symm.trans told
      cases onCall_outcome.of_eq called with
      | exit => cases exitWork_onExitStart.waited.symm.trans told
      | wait => exact ⟨kernel, _, _, _, _, waited_workOnWait told⟩
      | served => cases told
    | openAt | dup | sendFd =>
      obtain ⟨done, -, responded⟩ := map_eq_some_iff.mp handled
      cases responded
      cases told
    | query | onClose =>
      cases handled
      cases told
    | cancellation id =>
      simp only [handleScheme, cancel] at handled
      split at handled
      · cases handled
        cases told
      next tag _ =>
        cases handled
        cases tag <;> cases told
      · cases handled
        cases told
      · cases handled
        cases told

theorem fate_decoded (reached : procmgr.Reachable manager) :
    ∀ pid process, manager.scheme.get? pid = some process → ∀ exit,
      process.status.fate? = some exit →
      ∃ raw, decodeStatus raw = some (exit.2, exit.1) := by
  apply reached.invariant
  · intro pid process found
    cases (Table.get?_empty).symm.trans found
  · intro before event after output here earlier _ stepped pid process found exit decided
    rcases decided_step here stepped found decided with ⟨old, oldFound, same⟩ | ⟨raw, _, decoded⟩
    · exact earlier pid old oldFound exit same
    · exact ⟨raw, decoded⟩

theorem report_step {output status} (reached : procmgr.ReachableWhile reportPolicy.Allows manager)
    (stepped : manager.step event = some (manager', output))
    (told : waitReport output = some (pid, status)) (notZero : pid ≠ 0)
    (ended : status % 128 ≠ 127) : ∃ process signal code, manager.scheme.get? pid = some process ∧
      process.status = .exited signal code ∧ status = (terminated signal code).encode ∧
      manager'.scheme.get? pid = none := by
  obtain ⟨reports, idle⟩ := reported reached
  obtain ⟨kernel, waiter, target, flags, reqId, waits⟩ := waits_of_report stepped told
  have outcome := onWaitpid_outcome (wellKeyed reached.reachable) kernel waiter target flags reqId
  rw [waits] at outcome
  generalize resultEq : (manager'.scheme, Poll.ready (Except.ok (pid, status))) = result at outcome
  cases outcome with
  | failed | registered => cases congrArg Prod.snd resultEq
  | nothing =>
    cases congrArg Prod.snd resultEq
    exact absurd rfl notZero
  | @taken process remaining wPid taken found takes remains =>
    have same := grimReaper_snd (congrArg Prod.snd resultEq.symm)
    have after := congrArg Prod.fst resultEq
    obtain ⟨rfl, rfl⟩ := Prod.mk.inj same
    cases taken with
    | continued => exact absurd rfl ended
    | stopped signal => exact absurd encode_stopped_mod ended
    | terminated signal code =>
      -- Only the exit of a process that is there is held.
      have exits : ∃ named, manager.scheme.get? pid = some named ∧
          named.status = .exited signal code := by
        cases takes with
        | entry holds =>
          obtain ⟨parent, exited⟩ := reports.sound waiter pid (signal, code)
            ((family_holds found).mpr holds)
          obtain ⟨named, namedFound, -⟩ := family_parent_found parent
          rw [family_exit namedFound] at exited
          exact ⟨named, namedFound, ProcessStatus.exit?_eq_some exited⟩
        | child namedFound _ _ exited report =>
          cases report
          exact ⟨_, namedFound, exited⟩
      obtain ⟨named, namedFound, exited⟩ := exits
      refine ⟨named, signal, code, namedFound, exited, rfl, ?_⟩
      have threadless := idle pid named namedFound (by rw [exited]; simp [ProcessStatus.exit?])
      -- Taking the entry left the process as it was, up to its own map.
      obtain ⟨last, lastFound, lastThreads⟩ : ∃ last, (manager.scheme.set waiter
          { process with waitpid := remaining }).get? pid = some last ∧ last.threads = [] := by
        rw [get?_set]
        split
        next equality =>
          subst equality
          cases namedFound.symm.trans found
          exact ⟨_, rfl, threadless⟩
        · exact ⟨named, namedFound, threadless⟩
      have reaped := reaped lastFound lastThreads
      have result : manager'.scheme = _ := after
      rw [result]
      exact (reaped.get? pid).trans (if_pos rfl)

end Manager

def reportsExit (pid : ProcessId) (step : Transition Manager Event Response) : Bool :=
  (waitReport step.output).any fun report => report.1 == pid && report.2 % 128 != 127

theorem reportsExit_iff {step} : reportsExit pid step = true ↔
      ∃ status, waitReport step.output = some (pid, status) ∧ status % 128 ≠ 127 := by
  unfold reportsExit
  cases waitReport step.output with
  | none => simp
  | some report =>
    obtain ⟨named, status⟩ := report
    simp only [any_some, Bool.and_eq_true, beq_iff_eq, bne_iff_ne, some.injEq, Prod.mk.injEq]
    constructor
    · rintro ⟨rfl, ended⟩
      exact ⟨status, ⟨rfl, rfl⟩, ended⟩
    · rintro ⟨_, ⟨rfl, rfl⟩, ended⟩
      exact ⟨rfl, ended⟩

structure TerminationFinal (origin : Manager) (history : List (Transition Manager Event Response))
    (state : Manager) : Prop where
  /-- Statuses only move forward, and an exit keeps its signal and status. -/
  status : ∀ pid before after, origin.scheme.get? pid = some before →
    state.scheme.get? pid = some after → before.status.Leads after.status
  /-- They are the ones of the exit that was asked for first. -/
  started : ∀ step ∈ history, ∀ pid before after exit,
    step.before.scheme.get? pid = some before → step.after.scheme.get? pid = some after →
    before.status.fate? = none → after.status.fate? = some exit →
    ∃ raw, step.before.exitTarget step.event = some (pid, raw) ∧
      decodeStatus raw = some (exit.2, exit.1)
  idle : ∀ pid process, state.scheme.get? pid = some process →
    process.status.exit? ≠ none → process.threads = []
  /-- The wait status of an exit says that it is one, and which. -/
  encoding : ∀ pid process signal code, state.scheme.get? pid = some process →
    process.status = .exited signal code →
    signal.getD 0 ≤ 64 ∧ (terminated signal code).encode % 128 = signal.getD 0 ∧
      (terminated signal code).encode / 256 = code
  reports : ∀ step ∈ history, ∀ pid status, pid ≠ 0 →
    waitReport step.output = some (pid, status) → status % 128 ≠ 127 →
    ∃ process signal code, step.before.scheme.get? pid = some process ∧
      process.status = .exited signal code ∧
      status = (terminated signal code).encode ∧
      step.after.scheme.get? pid = none ∧ state.scheme.get? pid = none
  once : ∀ pid, pid ≠ 0 → (history.filter (reportsExit pid)).length ≤ 1

section Runs

variable {origin state : Manager} {history : List (Transition Manager Event Response)}

section

variable (path : procmgr.Path reportPolicy.Allows origin history state)

include path

section

variable (reached : procmgr.ReachableWhile reportPolicy.Allows origin)

include reached

theorem reported_path {step} (notZero : pid ≠ 0)
    (taken : step ∈ history) (reports : reportsExit pid step = true) :
    state.Known pid ∧ state.scheme.get? pid = none := by
  induction path with
  | start => exact absurd taken not_mem_nil
  | step earlier _ stepped ih =>
    have here := reached.path earlier
    rcases mem_append.mp taken with old | new
    · obtain ⟨known, missing⟩ := ih old
      obtain ⟨knownAfter, stays⟩ := known.step here.reachable stepped
      exact ⟨knownAfter, stays missing⟩
    rw [mem_singleton] at new
    subst new
    obtain ⟨status, told, ended⟩ := reportsExit_iff.mp reports
    obtain ⟨process, _, _, found, _, _, gone⟩ :=
      report_step here stepped told notZero ended
    exact ⟨((known_of_found here.reachable found).step here.reachable stepped).1, gone⟩

theorem reported_once (notZero : pid ≠ 0) : (history.filter (reportsExit pid)).length ≤ 1 := by
  induction path with
  | start => exact Nat.zero_le _
  | @step front between event output next earlier _ stepped ih =>
    rw [filter_append, length_append]
    by_cases reports : reportsExit pid ⟨between, event, output, next⟩ = true
    · -- The process is there, so nothing was reported before.
      obtain ⟨status, told, ended⟩ := reportsExit_iff.mp reports
      obtain ⟨process, _, _, found, _⟩ :=
        report_step (reached.path earlier) stepped told notZero ended
      have silent : front.filter (reportsExit pid) = [] := by
        apply filter_eq_nil_iff.mpr
        intro step taken reported
        obtain ⟨-, missing⟩ := reported_path earlier reached notZero taken reported
        cases missing.symm.trans found
      rw [silent, filter_singleton, reports]
      exact le_rfl
    · rw [filter_singleton, Bool.eq_false_iff.mpr reports]
      exact ih

end

end

/-- Under the policy, terminations are final and reported once, over every run. -/
theorem termination_final (reached : procmgr.ReachableWhile reportPolicy.Allows origin)
    (path : procmgr.Path reportPolicy.Allows origin history state) :
    TerminationFinal origin history state := by
  have here := reached.path path
  refine ⟨?_, ?_, ?_, ?_, ?_, ?_⟩
  · intro pid before after found
    exact (leads_path path reached found).2 after
  · intro step taken pid before after exit found afterFound undecided decided
    obtain ⟨stepReached, stepped⟩ := path.taken reached step taken
    rcases decided_step stepReached.reachable stepped afterFound decided with
      ⟨earlier, earlierFound, earlierDecided⟩ | starts
    · rw [found, some.injEq] at earlierFound
      subst earlierFound
      cases undecided.symm.trans earlierDecided
    · exact starts
  · exact (reported here).2
  · intro pid process signal code found exited
    obtain ⟨raw, decoded⟩ := fate_decoded here.reachable pid process found (signal, code)
      (by rw [exited]; rfl)
    have small := (decodeStatus_bounds decoded).2
    exact ⟨small, encode_terminated small⟩
  · intro step taken pid status notZero told ended
    obtain ⟨stepReached, stepped⟩ := path.taken reached step taken
    obtain ⟨process, signal, code, found, exited, encoded, gone⟩ :=
      report_step stepReached stepped told notZero ended
    exact ⟨process, signal, code, found, exited, encoded, gone,
      (reported_path path reached notZero taken (reportsExit_iff.mpr ⟨status, told, ended⟩)).2⟩
  · intro pid notZero
    exact reported_once path reached notZero

end Runs

def waitedRun : List Event :=
  boot ++ [fork 1 2 102] ++ rest ++
    [death 102, .drained, .socketEvent, call 5 1 .waitpid 0 0]

theorem termination_final_waited : ∃ history manager,
    procmgr.Path reportPolicy.Allows procmgr.start history manager ∧
    (history.filter (reportsExit 2)).length = 1 ∧
    TerminationFinal procmgr.start history manager := by
  have path := procmgr.path_replay reportPolicy.Allows waitedRun procmgr.start rfl
  exact ⟨_, _, path, rfl, termination_final ⟨[], .start⟩ path⟩

/-- A child of init exits and gets another thread; init waits for any child, and
then for this one. -/
def lateThreadRun : List Event :=
  boot ++ [fork 1 2 102] ++ rest ++
    [death 102, .drained, .socketEvent, newThread 2 3 103,
      call 5 1 .waitpid 0 0, call 6 1 .waitpid 2 0]

/-- The exit is reported twice, and the process that exited has a thread. -/
theorem termination_reported_twice : ∃ history manager process,
    procmgr.Run (fun _ _ => True) history manager ∧
    (history.filter (reportsExit 2)).length = 2 ∧
    manager.scheme.get? 2 = some process ∧ process.status = .exited none 0 ∧
    process.threads.length = 1 ∧ ¬ TerminationFinal procmgr.start history manager := by
  have run := procmgr.run_replay (fun _ _ => True) lateThreadRun rfl
  refine ⟨_, _, _, run, rfl, rfl, rfl, rfl, fun final => ?_⟩
  exact absurd (final.once 2 (by decide)) (by decide)

/-- A process that is gone does not come back, and its number is not given out again. -/
theorem pid_not_reused (pid : ProcessId) {origin middle manager process earlier later}
    (reached : procmgr.Reachable origin) (found : origin.scheme.get? pid = some process)
    (onward : procmgr.Path (fun _ _ => True) origin earlier middle)
    (gone : middle.scheme.get? pid = none)
    (further : procmgr.Path (fun _ _ => True) middle later manager) :
    manager.scheme.get? pid = none := by
  have known := (leads_path onward reached found).1
  suffices away : manager.Known pid ∧ manager.scheme.get? pid = none from away.2
  induction further with
  | start => exact ⟨known, gone⟩
  | step onward' _ stepped ih =>
    obtain ⟨known, missing⟩ := ih
    have here := (reached.path onward).path onward'
    obtain ⟨knownAfter, stays⟩ := known.step here stepped
    exact ⟨knownAfter, stays missing⟩

theorem pid_not_reused_waited : ∃ (manager : Manager) (process : Process),
    manager.scheme.get? 2 = none ∧ manager.scheme.get? 3 = some process := by
  have reached := procmgr.reachable_replay (boot ++ [fork 1 2 102]) rfl
  have gone := pid_not_reused 2 reached rfl (procmgr.path_replay _
    (rest ++ [death 102, .drained, .socketEvent, call 5 1 .waitpid 0 0]) _ rfl) rfl
    (procmgr.path_replay _ [fork 1 3 103] _ rfl)
  exact ⟨_, _, gone, rfl⟩

end EosBase.Procmgr
