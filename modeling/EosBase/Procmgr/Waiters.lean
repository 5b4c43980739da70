import EosBase.Procmgr.Pending
import EosBase.Procmgr.Scenario
import EosBase.Procmgr.WaitMaps

/-!
# No waiter is lost

A pending wait is registered with its waiter, whose next status change puts it
into the queue, and each evaluation that finds nothing registers it again.  One
path of `on_waitpid` does not: an entry that the flags do not ask for is dropped,
and the request with it.  The results here are about runs in which every wait
that is evaluated asks for what it meets.
-/

namespace EosBase.Procmgr

open ProcScheme Scenario List Option

variable {target : WaitpidTarget} {waiter : ProcessId} {flags : WaitFlags} {op : OpCall}

namespace ProcScheme

variable {scheme scheme' : ProcScheme} {kernel : Kernel}

theorem onWaitpid_pending {thisPid reqId} (wellKeyed : scheme.WellKeyed)
    (asks : ∀ process, scheme.get? thisPid = some process →
      ∀ status ∈ target.meets process, status.requested flags = true)
    (pending : scheme.onWaitpid kernel thisPid target flags reqId = (scheme', .pending)) :
    ∃ process, scheme.get? thisPid = some process ∧
      scheme' = scheme.set thisPid
        { process with waitpidWaiting := process.waitpidWaiting ++ [reqId] } := by
  have outcome := onWaitpid_outcome wellKeyed kernel thisPid target flags reqId
  rw [pending] at outcome
  generalize resultEq : ((scheme', .pending) : Waited) = result at outcome
  cases outcome with
  | failed | nothing => cases congrArg Prod.snd resultEq
  | registered found => exact ⟨_, found, congrArg Prod.fst resultEq⟩
  | @taken process remaining wPid status found takes remains =>
    have asked : status.requested flags = true := by
      cases takes with
      | entry _ met => exact asks process found status met
      | child _ _ _ _ report =>
        rw [report]
        rfl
    rw [grimReaper_eq, reported, if_pos asked] at resultEq
    cases congrArg Prod.snd resultEq

theorem workOnWait_entry {thisPid reqId states awoken target' flags' op'}
    (entry : (scheme.workOnWait kernel states awoken reqId thisPid target flags op).states.get?
      reqId = some (.awaitingStatusChange waiter target' flags' op')) :
    (thisPid, target, flags) = (waiter, target', flags') ∧
      scheme.onWaitpid kernel waiter target' flags' reqId =
        ((scheme.workOnWait kernel states awoken reqId thisPid target flags op).scheme,
          .pending) := by
  simp only [workOnWait] at entry ⊢
  split at entry
  · cases (states.get?_insert_self reqId _).symm.trans entry
  · cases (states.get?_insert_self reqId _).symm.trans entry
  next equality =>
  cases (states.get?_insert_self reqId _).symm.trans entry
  exact ⟨rfl, Prod.ext rfl equality⟩

end ProcScheme

variable {id : VirtualId} {event : Event}

namespace Manager

variable {manager manager' : Manager}

/-- The wait that an event evaluates: a new one, or the one at the head of the
queue. -/
def waitEvaluated (manager : Manager) : Event → Option (ProcessId × WaitpidTarget × WaitFlags)
  | .wake _ =>
    match manager.awoken.head?.bind manager.states.get? with
    | some (.awaitingStatusChange waiter target flags _) => some (waiter, target, flags)
    | _ => none
  | .request (.call op) _ =>
    match manager.scheme.handles.get? op.fd, op.procCall, op.waitFlags with
    | some (.proc pid), some verb, some flags =>
      if verb = .waitpid ∨ verb = .waitpgid then
        some (pid, waitTarget verb op.arg1, flags)
      else
        none
    | _, _, _ => none
  | _ => none

def AsksForMet (manager : Manager) (event : Event) : Prop :=
  ∀ evaluated ∈ manager.waitEvaluated event, ∀ process ∈ manager.scheme.get? evaluated.1,
    ∀ status ∈ evaluated.2.1.meets process, status.requested evaluated.2.2 = true

instance (manager : Manager) (event : Event) : Decidable (manager.AsksForMet event) :=
  inferInstanceAs (Decidable (∀ evaluated ∈ manager.waitEvaluated event,
    ∀ process ∈ manager.scheme.get? evaluated.1,
      ∀ status ∈ evaluated.2.1.meets process, status.requested evaluated.2.2 = true))

theorem wake_entry {kernel rest} (queued : manager.awoken = id :: rest)
    (entry : (manager.wake kernel id rest).1.states.get? id =
      some (.awaitingStatusChange waiter target flags op)) :
    manager.waitEvaluated (.wake kernel) = some (waiter, target, flags) ∧
      manager.scheme.onWaitpid kernel waiter target flags id =
        ((manager.wake kernel id rest).1.scheme, .pending) := by
  unfold wake at entry ⊢
  split at entry
  next missing => cases missing.symm.trans entry
  next state pending =>
  cases state with
  | placeholder => cases (Table.get?_insert_self _ id _).symm.trans entry
  | awaitingThreadsTermination pid tag =>
    rcases exitWork_workOnExit.entry _ entry with same | notWait
    · cases pending.symm.trans same
    · cases notWait
  | awaitingStatusChange thisPid asked given opened =>
    obtain ⟨same, waited⟩ := workOnWait_entry entry
    refine ⟨?_, waited⟩
    simp only [waitEvaluated, queued, head?_cons, bind_some, pending]
    rw [same]

theorem call_entry {kernel called work}
    (done : manager.scheme.onCall kernel (manager.states.erase (.kernelId called.requestId))
      manager.awoken called = some work) (entry : work.states.get? (.kernelId called.requestId) =
      some (.awaitingStatusChange waiter target flags op)) :
    manager.waitEvaluated (.request (.call called) kernel) = some (waiter, target, flags) ∧
      manager.scheme.onWaitpid kernel waiter target flags (.kernelId called.requestId) =
        (work.scheme, .pending) := by
  have vacant := manager.states.get?_erase_self (.kernelId called.requestId)
  cases onCall_outcome.of_eq done with
  | exit =>
    rcases exitWork_onExitStart.entry _ entry with same | notWait
    · cases vacant.symm.trans same
    · cases notWait
  | served => cases vacant.symm.trans entry
  | wait opened named waits flagged =>
    obtain ⟨same, waited⟩ := workOnWait_entry entry
    refine ⟨?_, waited⟩
    simp only [waitEvaluated, opened, named, flagged]
    rw [if_pos waits, same]

theorem cancel_entry (manager : Manager) (request : Nat) :
    (manager.cancel request).1.states.get? (.kernelId request) = none := by
  have erased := manager.states.get?_erase_self (.kernelId request)
  simp only [cancel]
  split
  · exact erased
  · rw [Table.get?_insert_of_ne _ (by simp)]
    exact erased
  · exact erased
  next missing => exact missing

theorem pendingWait_step {output} (stepped : manager.step event = some (manager', output))
    (pending : manager'.states.get? id = some (.awaitingStatusChange waiter target flags op)) :
    (manager.states.get? id = some (.awaitingStatusChange waiter target flags op) ∧
        ¬ manager.Evaluates event id) ∨
      (manager.waitEvaluated event = some (waiter, target, flags) ∧
        ∃ kernel, manager.scheme.onWaitpid kernel waiter target flags id =
          (manager'.scheme, .pending)) := by
  by_cases serves : manager.served event = some id
  · apply Or.inr
    cases event with
    | wake kernel =>
      obtain ⟨_, head, rest, queued, woken⟩ := of_step_wake stepped
      have same : head = id := by simpa [served, queued] using serves
      subst same
      obtain ⟨evaluated, waited⟩ := wake_entry queued (by rw [woken]; exact pending)
      rw [woken] at waited
      exact ⟨evaluated, kernel, waited⟩
    | request request kernel =>
      have handled := (of_step_request stepped).2
      cases request with
      | call called =>
        obtain ⟨work, done, finished⟩ := map_eq_some_iff.mp handled
        cases finished
        cases serves
        obtain ⟨evaluated, waited⟩ := call_entry done pending
        exact ⟨evaluated, kernel, waited⟩
      | cancellation request =>
        cases serves
        have gone := manager.cancel_entry request
        rw [some.inj handled] at gone
        cases gone.symm.trans pending
      | _ => cases serves
    | _ => cases serves
  · apply Or.inl
    rcases states_step stepped with same | written | enters
    · refine ⟨same.symm.trans pending, ?_⟩
      rintro ⟨⟨kernel, rfl⟩, head⟩
      exact serves head
    · exact absurd written serves
    · cases enters.notWait _ pending

/-- While the waiter is there, the request is queued or registered with it. -/
structure Attends (manager : Manager) (id : VirtualId) (waiter : ProcessId) : Prop where
  known : manager.Known waiter
  kept : ∀ process, manager.scheme.get? waiter = some process →
    manager.Queued id ∨ id ∈ process.waitpidWaiting

end Manager

theorem Evolves.waiting {policy kind scheme pid before after added queue}
    (evolves : Evolves policy kind scheme pid before after added) (woken : added ⊆ queue)
    (waiting : id ∈ queue ∨ id ∈ before.waitpidWaiting) :
    id ∈ queue ∨ id ∈ after.waitpidWaiting := by
  rcases waiting with queued | registered
  · exact .inl queued
  cases evolves with
  | same | regrouped | session | adopted | adopts => exact .inr registered
  | edit edit =>
    cases edit with
    | page touched | touch touched =>
      rw [touched.waitpidWaiting]
      exact .inr registered
    | creds derived =>
      rw [derived.waitpidWaiting]
      exact .inr registered
    | record | recordExit | drain => exact .inl (woken registered)
    | register => exact .inr (mem_append_left _ registered)
    | _ => exact .inr registered

namespace Manager

variable {manager manager' : Manager}

theorem Attends.step {output} (attends : manager.Attends id waiter)
    (reached : procmgr.Reachable manager)
    (stepped : manager.step event = some (manager', output))
    (notEvaluated : ¬ manager.Evaluates event id) : manager'.Attends id waiter := by
  refine ⟨(attends.known.step reached stepped).1, ?_⟩
  intro process found
  by_cases queued : manager.Queued id
  · exact .inl ((queued_step reached stepped queued).resolve_right notEvaluated)
  obtain ⟨awoken, edits, appended⟩ :=
    later_edits attends.known.registered Policy.free_allows stepped
  have waiting := edits.preserveQueued
    (motive := fun queue process => id ∈ queue ∨ id ∈ process.waitpidWaiting)
    registerInit_not_later attends.known.used ?_ ?_ ?_ process found
  · exact waiting.imp_left fun listed => queued_of_mem (appended listed)
  · intro queue longer process inside
    exact Or.imp_left fun listed => inside listed
  · intro kind _ scheme before after added queue evolves woken
    exact evolves.waiting woken
  · intro before beforeFound
    exact .inr ((attends.kept before beforeFound).resolve_left queued)

theorem waits_attended (reached : procmgr.ReachableWhile AsksForMet manager) :
    ∀ id waiter target flags op,
      manager.states.get? id = some (.awaitingStatusChange waiter target flags op) →
      manager.Attends id waiter := by
  apply reached.invariant
  · intro id waiter target flags op pending
    cases (Table.get?_empty).symm.trans pending
  · intro before event after output reachedHere attended asks stepped id waiter target flags op
      pending
    have here := reachedHere.reachable
    rcases pendingWait_step stepped pending with ⟨old, notEvaluated⟩ | ⟨evaluated, kernel, waited⟩
    · exact (attended id waiter target flags op old).step here stepped notEvaluated
    -- The evaluation registers the request, since it met nothing else.
    obtain ⟨process, found, registered⟩ := onWaitpid_pending (Manager.wellKeyed here)
      (fun process found => asks _ evaluated process found) waited
    refine ⟨((known_of_found here found).step here stepped).1, ?_⟩
    intro process' found'
    rw [registered, get?_set_self, some.injEq] at found'
    subst found'
    exact .inr (mem_append_right _ (mem_singleton_self id))

end Manager

/-- A pending wait is in the queue, or registered with its waiter so that the
next status of a child puts it there. -/
theorem no_waiter_lost {manager : Manager} {id : VirtualId} {waiter : ProcessId}
    {target : WaitpidTarget} {flags : WaitFlags} {op : OpCall} {process : Process}
    (reached : procmgr.ReachableWhile Manager.AsksForMet manager)
    (pending : manager.states.get? id = some (.awaitingStatusChange waiter target flags op))
    (found : manager.scheme.get? waiter = some process) :
    manager.Queued id ∨
      (id ∈ process.waitpidWaiting ∧ ∀ awoken childPid pgid status,
        id ∈ (manager.scheme.recordStatus awoken waiter process childPid pgid status).2) := by
  have attends := Manager.waits_attended reached id waiter target flags op pending
  rcases attends.kept process found with queued | registered
  · exact .inl queued
  · refine .inr ⟨registered, ?_⟩
    intro awoken childPid pgid status
    exact mem_append_right awoken registered

def waitingRun : List Event :=
  boot ++ [fork 1 2 102, call 7 1 .waitpid 0 0]

theorem no_waiter_lost_init : ∃ (manager : Manager) (process : Process),
    manager.states.get? (.kernelId 7) = some (.awaitingStatusChange initPid .anyChild
      ⟨false, false, false⟩ (callOp 7 1 .waitpid 0 0)) ∧
    manager.scheme.get? initPid = some process ∧
    (manager.Queued (.kernelId 7) ∨
      (.kernelId 7 ∈ process.waitpidWaiting ∧ ∀ awoken childPid pgid status, .kernelId 7 ∈
          (manager.scheme.recordStatus awoken initPid process childPid pgid status).2)) := by
  have reached := procmgr.reachableWhile_replay Manager.AsksForMet waitingRun rfl
  exact ⟨_, _, rfl, rfl, no_waiter_lost reached rfl rfl⟩

/-- Init waits for any child without asking for stopped ones, and its child is
stopped. -/
def lostWaiterRun : List Event :=
  boot ++
    [fork 1 2 102, call 5 2 .syncSigPctl 0 0, call 7 1 .waitpid 0 0, call 8 1 .kill 2 sigstop,
      .wouldBlock, .wake (kernel 9 0)]

/-- The request is pending, but nothing will evaluate it again. -/
theorem waiter_lost : ∃ (manager : Manager) (process : Process), procmgr.Reachable manager ∧
    manager.states.get? (.kernelId 7) = some (.awaitingStatusChange initPid .anyChild
      ⟨false, false, false⟩ (callOp 7 1 .waitpid 0 0)) ∧
    manager.scheme.get? initPid = some process ∧
    .kernelId 7 ∉ process.waitpidWaiting ∧ ¬ manager.Queued (.kernelId 7) := by
  have reached := procmgr.reachable_replay lostWaiterRun rfl
  refine ⟨_, _, reached, rfl, rfl, not_mem_nil, ?_⟩
  rintro (queued | queued)
  · exact not_mem_nil queued
  · exact not_mem_nil queued

end EosBase.Procmgr
