import EosBase.Procmgr.Identity

/-!
# Pending requests

What a step does to the table of pending requests and to the queues of awoken
ones.  A request is evaluated when the loop takes it from its queue; apart from
that, a step writes only to the entry of the request that it serves.
-/

namespace EosBase.Procmgr

open Redox ProcScheme Option

variable {output : Option Response} {event : Event} {manager manager' : Manager} {id : VirtualId}

namespace Manager

def Queued (manager : Manager) (id : VirtualId) : Prop :=
  id ∈ manager.awoken ∨ id ∈ manager.newAwoken

def Evaluates (manager : Manager) (event : Event) (id : VirtualId) : Prop :=
  (∃ kernel, event = .wake kernel) ∧ manager.awoken.head? = some id

theorem newAwoken_onThreadEvent (manager : Manager) (kernel : Kernel) (data : Nat)
    (status : ContextStatus) :
    (manager.onThreadEvent kernel data status).1.newAwoken = manager.newAwoken := by
  unfold onThreadEvent
  split
  · rfl
  split
  · simp only [threadDied]
    split
    · rfl
    split
    · split <;> rfl
    · rfl
  · rfl

theorem newAwoken_handleScheme {kernel request}
    (done : manager.handleScheme kernel request = some (manager', output)) :
    manager'.newAwoken = manager.newAwoken := by
  cases request with
  | openAt | dup | sendFd | call =>
    obtain ⟨work, -, finished⟩ := map_eq_some_iff.mp done
    cases finished
    rfl
  | query | onClose =>
    cases done
    rfl
  | cancellation id =>
    simp only [handleScheme, cancel] at done
    split at done <;> cases done <;> rfl

theorem queued_of_mem (listed : id ∈ manager.queue event) : manager.Queued id := by
  cases event with
  | wake kernel => exact .inr listed
  | _ => exact .inl listed

theorem otherQueue_step (stepped : manager.step event = some (manager', output))
    (queued : manager.Queued id) :
    id ∈ manager.queue event ∨ manager'.Queued id ∨ manager.Evaluates event id := by
  cases event with
  | appendAwoken =>
    simp only [step] at stepped
    split at stepped
    · cases stepped
      rcases queued with old | new
      · exact .inl old
      · exact .inr (.inl (.inl new))
    · cases stepped
  | wake kernel =>
    rcases queued with old | new
    · obtain ⟨_, head, rest, queue, woken⟩ := of_step_wake stepped
      rw [queue] at old
      rcases List.mem_cons.mp old with rfl | later
      · exact .inr (.inr ⟨⟨kernel, rfl⟩, by rw [queue]; rfl⟩)
      · refine .inr (.inl (.inl ?_))
        simp only [wake] at woken
        split at woken <;> cases woken <;> exact later
    · exact .inl new
  | drained | socketEvent | wouldBlock =>
    simp only [step] at stepped
    split at stepped <;> cases stepped
    exact .inr (.inl queued)
  | userStore =>
    cases stepped
    exact .inr (.inl queued)
  | request request kernel =>
    rcases queued with old | new
    · exact .inl old
    · exact .inr (.inl (.inr (newAwoken_handleScheme (of_step_request stepped).2 ▸ new)))
  | threadEvent data status kernel =>
    rcases queued with old | new
    · exact .inl old
    · have same := newAwoken_onThreadEvent { manager with phase := .draining } kernel data status
      rw [(of_step_threadEvent stepped).2] at same
      exact .inr (.inl (.inr (same ▸ new)))

theorem queued_step (reached : procmgr.Reachable manager)
    (stepped : manager.step event = some (manager', output)) (queued : manager.Queued id) :
    manager'.Queued id ∨ manager.Evaluates event id := by
  obtain ⟨awoken, edits, appended⟩ :=
    reachable_edits reached Policy.free_allows stepped
  rcases otherQueue_step stepped queued with listed | other
  · exact .inl (queued_of_mem (appended (edits.queue_subset listed)))
  · exact other

end Manager

def PendingState.isWait : PendingState → Bool
  | awaitingStatusChange _ _ _ _ => true
  | _ => false

def Poll.waited : Poll Response → Option (ProcessId × Nat)
  | .ready response => response.waited
  | .pending => none

namespace ProcScheme

variable {scheme : ProcScheme} {kernel : Kernel} {states : Table VirtualId PendingState}
  {awoken : List VirtualId} {reqId id : VirtualId} {pid : ProcessId} {tag : Option Nat}

theorem waited_answer {result} : (answer tag result).waited = none := by
  cases tag with
  | none => rfl
  | some => rfl

structure ExitWork (states : Table VirtualId PendingState) (reqId : VirtualId) (work : Work) :
    Prop where
  frame : ∀ id, id ≠ reqId → work.states.get? id = states.get? id
  entry : ∀ state, work.states.get? reqId = some state →
    states.get? reqId = some state ∨ state.isWait = false
  waited : work.poll.waited = none

variable {op : OpCall} {poll : Poll Response}

namespace ExitWork

theorem unchanged (waited : poll.waited = none) :
    ExitWork states reqId ⟨scheme, states, awoken, poll⟩ :=
  ⟨fun _ _ => rfl, fun _ => .inl, waited⟩

theorem erased (waited : poll.waited = none) :
    ExitWork states reqId ⟨scheme, states.erase reqId, awoken, poll⟩ := by
  refine ⟨fun id other => (states.get?_erase reqId id).trans (if_neg other), ?_, waited⟩
  intro state entry
  cases (states.get?_erase_self reqId).symm.trans entry

theorem entered {state} (notWait : state.isWait = false) (waited : poll.waited = none) :
    ExitWork states reqId ⟨scheme, states.insert reqId state, awoken, poll⟩ := by
  refine ⟨fun id => states.get?_insert_of_ne, ?_, waited⟩
  intro state' entry
  cases (states.get?_insert_self reqId _).symm.trans entry
  exact .inr notWait

theorem settled (result : Except Errno Nat) :
    ExitWork states reqId ⟨scheme, settle states reqId tag, awoken, answer tag result⟩ := by
  cases tag with
  | none => exact erased rfl
  | some => exact entered rfl rfl

end ExitWork

theorem exitWork_workOnExit :
    ExitWork states reqId (scheme.workOnExit kernel states awoken reqId pid tag) := by
  unfold workOnExit
  split
  · exact .settled _
  split
  · split
    · exact .erased waited_answer
    · exact .settled _
    · exact .settled _
  · exact .entered rfl rfl

theorem exitWork_onExitStart {status} :
    ExitWork states reqId (scheme.onExitStart kernel states awoken reqId pid status tag) := by
  simp only [onExitStart]
  split
  · exact .unchanged waited_answer
  split
  · exact .unchanged waited_answer
  · exact .unchanged waited_answer
  split
  · exact .unchanged waited_answer
  split
  · exact .unchanged rfl
  · exact exitWork_workOnExit

theorem states_workOnWait {target flags} (other : id ≠ reqId) :
    (scheme.workOnWait kernel states awoken reqId pid target flags op).states.get? id =
      states.get? id := by
  simp only [workOnWait]
  split <;> exact states.get?_insert_of_ne other

theorem states_workOn {state} (other : id ≠ reqId) :
    (scheme.workOn kernel states awoken reqId state).states.get? id = states.get? id := by
  cases state with
  | placeholder => exact states.get?_insert_of_ne other
  | awaitingThreadsTermination currentPid tag => exact exitWork_workOnExit.frame id other
  | awaitingStatusChange waiter target flags op => exact states_workOnWait other

/-- What a call does: it starts an exit, evaluates a wait, or is served at once. -/
inductive CallOutcome (scheme : ProcScheme) (kernel : Kernel)
    (states : Table VirtualId PendingState) (awoken : List VirtualId) (op : OpCall) :
    Work → Prop where
  | exit {pid : ProcessId} (opened : scheme.handles.get? op.fd = some (.proc pid))
      (named : op.procCall = some .exit) :
      CallOutcome scheme kernel states awoken op
        (scheme.onExitStart kernel states awoken (.kernelId op.requestId) pid (op.arg1 % 65536)
          (some op.requestId))
  | wait {pid : ProcessId} {verb : ProcCall} {flags : WaitFlags}
      (opened : scheme.handles.get? op.fd = some (.proc pid)) (named : op.procCall = some verb)
      (waits : verb = .waitpid ∨ verb = .waitpgid) (flagged : op.waitFlags = some flags) :
      CallOutcome scheme kernel states awoken op
        (scheme.workOnWait kernel states awoken (.kernelId op.requestId) pid
          (waitTarget verb op.arg1) flags op)
  | served (scheme' : ProcScheme) (awoken' : List VirtualId) (result : Except Errno Nat)
      (written : Written)
      (noExit : ∀ pid, scheme.handles.get? op.fd = some (.proc pid) → op.procCall ≠ some .exit) :
      CallOutcome scheme kernel states awoken op (scheme'.served states awoken' op result written)

theorem onProcCall_outcome {verb} (opened : scheme.handles.get? op.fd = some (.proc pid))
    (named : op.procCall = some verb) : Ends (CallOutcome scheme kernel states awoken op)
      (scheme.onProcCall kernel states awoken pid verb op) := by
  have noExit : verb ≠ .exit →
      ∀ pid, scheme.handles.get? op.fd = some (.proc pid) → op.procCall ≠ some .exit := by
    intro different _ _ exits
    exact different (some.inj (named.symm.trans exits))
  cases verb with
  | exit => exact .exit opened named
  | waitpid | waitpgid =>
    simp only [onProcCall]
    split
    · exact .served _ _ _ _ (noExit (by decide))
    next flags flagged => exact .wait opened named (by decide) flagged
  | setpgid | kill | sigdeq =>
    simp only [onProcCall]
    split <;> exact .served _ _ _ _ (noExit (by decide))
  | sigq =>
    simp only [onProcCall]
    split
    · exact .served _ _ _ _ (noExit (by decide))
    split <;> exact .served _ _ _ _ (noExit (by decide))
  | setResugid | rename => exact .map (.intro fun _ => .served _ _ _ _ (noExit (by decide)))
  | _ => exact .served _ _ _ _ (noExit (by decide))

theorem onThreadCall_outcome {thread} (opened : scheme.handles.get? op.fd = some (.thread thread)) :
    CallOutcome scheme kernel states awoken op
      (scheme.onThreadCall kernel states awoken thread op) := by
  have noExit : ∀ pid, scheme.handles.get? op.fd = some (.proc pid) → op.procCall ≠ some .exit := by
    intro pid other
    cases opened.symm.trans other
  unfold onThreadCall
  split
  · exact .served _ _ _ _ noExit
  split
  · exact .served _ _ _ _ noExit
  · exact .served _ _ _ _ noExit
  · exact .served _ _ _ _ noExit

theorem onCall_outcome : Ends (CallOutcome scheme kernel states awoken op)
    (scheme.onCall kernel states awoken op) := by
  unfold onCall
  split
  · trivial
  next opened => exact .served _ _ _ _ fun _ other => by cases opened.symm.trans other
  next opened => exact onThreadCall_outcome opened
  next opened =>
    split
    next unnamed => exact .served _ _ _ _ fun _ _ exits => by cases unnamed.symm.trans exits
    next named => exact onProcCall_outcome opened named
  next opened => exact .served _ _ _ _ fun _ other => by cases opened.symm.trans other
  next opened =>
    split
    · split <;> exact .served _ _ _ _ fun _ other => by cases opened.symm.trans other
    · exact .served _ _ _ _ fun _ other => by cases opened.symm.trans other
  next opened => exact .served _ _ _ _ fun _ other => by cases opened.symm.trans other

theorem CallOutcome.frame {work} (outcome : CallOutcome scheme kernel states awoken op work)
    (other : id ≠ .kernelId op.requestId) : work.states.get? id = states.get? id := by
  cases outcome with
  | exit => exact exitWork_onExitStart.frame id other
  | wait => exact states_workOnWait other
  | served => rfl

end ProcScheme

namespace Manager

variable {manager manager' : Manager} {id : VirtualId} {kernel : Kernel}

def served (manager : Manager) : Event → Option VirtualId
  | .wake _ => manager.awoken.head?
  | .request (.call op) _ => some (.kernelId op.requestId)
  | .request (.cancellation id) _ => some (.kernelId id)
  | _ => none

structure EntersExit (manager manager' : Manager) (id : VirtualId) : Prop where
  next : id = .internalId manager.scheme.nextInternalId
  numbered : manager.scheme.nextInternalId < manager'.scheme.nextInternalId
  notWait : ∀ state, manager'.states.get? id = some state → state.isWait = false

theorem states_threadDied {data : Nat} {thread : Thread} {process : Process}
    {status : Nat} (found : manager.scheme.get? thread.pid = some process)
    (covers : kernel.Covers manager.scheme) (id : VirtualId) :
    let died := (manager.threadDied kernel data thread process status).1
    died.states.get? id = manager.states.get? id ∨ manager.EntersExit died id := by
  intro died
  simp only [died, threadDied]
  split
  · exact .inl rfl
  split
  · split
    · exact .inl rfl
    next vacant =>
    by_cases other : id = .internalId manager.scheme.nextInternalId
    · subst other
      refine .inr ⟨rfl, ?_, fun state entry =>
        (exitWork_onExitStart.entry state entry).resolve_left (by simp [vacant])⟩
      have left : kernel.Covers (manager.scheme.buried data thread.pid
          (process.dropThread thread.rc)).takeInternalId := covers.set found _
      have edits := @onExitStart_edits Policy.free _ kernel thread.pid status
        manager.states manager.awoken (.internalId manager.scheme.nextInternalId) none left
        trivial fun _ _ _ _ _ => trivial
      exact Nat.lt_of_succ_le edits.counters_le.2
    · exact .inl (exitWork_onExitStart.frame id other)
  · exact .inl rfl

theorem states_wake {head rest} (other : id ≠ head) :
    (manager.wake kernel head rest).1.states.get? id = manager.states.get? id := by
  unfold wake
  split
  · rfl
  · exact states_workOn other

theorem states_cancel {request} (other : id ≠ .kernelId request) :
    (manager.cancel request).1.states.get? id = manager.states.get? id ∨
      manager.EntersExit (manager.cancel request).1 id := by
  have erased : (manager.states.erase (.kernelId request)).get? id = manager.states.get? id :=
    (manager.states.get?_erase _ id).trans (if_neg other)
  simp only [cancel]
  split
  · exact .inl erased
  next pid tag _ =>
    by_cases isNext : id = .internalId manager.scheme.nextInternalId
    · subst isNext
      refine .inr ⟨rfl, Nat.lt_succ_self _, ?_⟩
      intro state entry
      cases (Table.get?_insert_self _ _ _).symm.trans entry
      rfl
    · exact .inl ((Table.get?_insert_of_ne _ isNext).trans erased)
  · exact .inl erased
  · exact .inl rfl

/-- A step writes to the entry of the request it serves, and may enter the exit
of a process under a new internal identifier. -/
theorem states_step (stepped : manager.step event = some (manager', output)) :
    manager'.states.get? id = manager.states.get? id ∨ manager.served event = some id ∨
      manager.EntersExit manager' id := by
  by_cases serves : manager.served event = some id
  · exact .inr (.inl serves)
  suffices frame : manager'.states.get? id = manager.states.get? id ∨
      manager.EntersExit manager' id from frame.imp_right .inr
  cases event with
  | appendAwoken | drained | socketEvent | wouldBlock =>
    simp only [step] at stepped
    split at stepped <;> cases stepped
    exact .inl rfl
  | userStore =>
    cases stepped
    exact .inl rfl
  | wake kernel =>
    obtain ⟨_, head, rest, queued, woken⟩ := of_step_wake stepped
    have other : id ≠ head := by
      rintro rfl
      simp [served, queued] at serves
    have frame := @states_wake manager id kernel head rest other
    rw [woken] at frame
    exact .inl frame
  | threadEvent data status kernel =>
    obtain ⟨admits, noticed⟩ := of_step_threadEvent stepped
    simp only [onThreadEvent] at noticed
    split at noticed
    · cases noticed
      exact .inl rfl
    split at noticed
    next process raw found _ =>
      have died := @states_threadDied { manager with phase := .draining } kernel data _
        process raw found admits.covers id
      rw [noticed] at died
      exact died.imp_right fun enters => ⟨enters.next, enters.numbered, enters.notWait⟩
    · cases noticed
      exact .inl rfl
  | request request kernel =>
    have handled := (of_step_request stepped).2
    cases request with
    | call op =>
      obtain ⟨work, called, done⟩ := map_eq_some_iff.mp handled
      cases done
      have other : id ≠ .kernelId op.requestId := by
        rintro rfl
        exact serves rfl
      refine .inl (((onCall_outcome.of_eq called).frame other).trans ?_)
      exact (manager.states.get?_erase _ id).trans (if_neg other)
    | openAt | dup | sendFd =>
      obtain ⟨done, -, responded⟩ := map_eq_some_iff.mp handled
      cases responded
      exact .inl rfl
    | query | onClose =>
      cases handled
      exact .inl rfl
    | cancellation request =>
      have other : id ≠ .kernelId request := by
        rintro rfl
        exact serves rfl
      have cancelled := @states_cancel manager id request other
      rwa [some.inj handled] at cancelled

end Manager

end EosBase.Procmgr
