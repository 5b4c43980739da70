import EosBase.Procmgr.Fate
import EosBase.Procmgr.Pending
import EosBase.Procmgr.Scenario

/-!
# An exit makes progress

A process that is exiting has a request that completes its exit once its last
thread is dead.  The request is queued, or registered with the process while it
has threads; a cancellation hands it on to an internal request.

`on_exit_start` sets the status before it kills the threads, and gives up when a
write to the status of one of them fails.  The results here are about runs where
that does not happen and where no call comes under the identifier of an exit that
is pending.
-/

namespace EosBase.Procmgr

open Option ProcScheme Scenario ProcessStatus Manager List

variable {scheme : ProcScheme} {tag : Option Nat}

namespace ProcScheme

variable {kernel : Kernel} {states : Table VirtualId PendingState}
  {awoken : List VirtualId} {reqId : VirtualId} {pid : ProcessId}
  {process after : Process}

/-- What is left to do when an exit was evaluated and the process is still
exiting: its threads have to die, and the request waits for that. -/
structure AwaitsThreads (work : Work) (reqId : VirtualId) (pid : ProcessId)
    (tag : Option Nat) (after : Process) : Prop where
  entry : work.states.get? reqId = some (.awaitingThreadsTermination pid tag)
  registered : reqId ∈ after.awaitingThreadsTerm
  threads : after.threads ≠ []

variable {signal : Option Nat} {status : Nat}

section

variable (found : scheme.get? pid = some process)

include found

theorem finishExit_exited {ppid pgid} (exited : process.status = .exited signal status)
    (used : pid < scheme.nextId)
    (afterFound : (scheme.finishExit kernel awoken pid ppid pgid signal status).1.get? pid =
      some after) : after.status = .exited signal status := by
  have edits : Edits Policy.free finishKinds (scheme, awoken) _ :=
    finishExit_edits kernel pid ppid pgid signal status
  refine edits.preserveProcess (motive := fun process => process.status = .exited signal status)
    (by decide) used ?_ ?_ after afterFound
  · intro kind _ scheme before after added evolves exited
    have leads := evolves.leads
    rw [exited] at leads
    exact leads
  · intro candidate candidateFound
    rw [found, some.injEq] at candidateFound
    rw [← candidateFound]
    exact exited

theorem workOnExit_exiting
    (exiting : process.status = .exiting signal status) (used : pid < scheme.nextId)
    (afterFound : (scheme.workOnExit kernel states awoken reqId pid tag).scheme.get? pid =
      some after) (still : after.status.isExiting = true) :
    process.threads ≠ [] ∧
      AwaitsThreads (scheme.workOnExit kernel states awoken reqId pid tag) reqId pid tag
        after := by
  unfold workOnExit at afterFound ⊢
  simp only [found, exiting] at afterFound ⊢
  split at afterFound
  next threadless =>
    have exited := finishExit_exited get?_set_self rfl used afterFound
    rw [exited] at still
    cases still
  next threads =>
  have threads : process.threads ≠ [] := by simpa using threads
  rw [if_neg (by simpa using threads)]
  cases (get?_set_self).symm.trans afterFound
  exact ⟨threads, states.get?_insert_self reqId _,
    mem_append_right _ (mem_singleton_self reqId), threads⟩

/-- An exit that starts while every thread can be told leaves a request behind,
unless it completes at once. -/
theorem onExitStart_exiting {work}
    (notExiting : process.status.isExiting = false) (used : pid < scheme.nextId)
    (done : scheme.onExitStart kernel states awoken reqId pid status tag = work)
    (afterFound : work.scheme.get? pid = some after) (still : after.status.isExiting = true)
    (told : tag.isSome = true → process.status.isTerminating = false →
      (decodeStatus status).isSome = true →
      ∀ thread ∈ process.threads, kernel.statusWrite thread.rc = none) :
    process.threads ≠ [] ∧ AwaitsThreads work reqId pid tag after := by
  have unchanged : scheme.get? pid ≠ some after := by
    intro same
    rw [found, some.injEq] at same
    rw [same, still] at notExiting
    cases notExiting
  simp only [onExitStart, found] at done
  split at done
  next exiting =>
    rw [exiting] at notExiting
    cases notExiting
  · subst done
    exact absurd afterFound unchanged
  next noExiting noExited =>
  have live := isTerminating_eq_false noExiting noExited
  split at done
  · subst done
    exact absurd afterFound unchanged
  next code signal decoded =>
  split at done
  next errno tagged failed =>
    -- Every thread could be told.
    obtain ⟨thread, member, writes⟩ := exists_of_findSome?_eq_some failed
    cases (told rfl live (by rw [decoded]; rfl) thread member).symm.trans writes
  · subst done
    split at afterFound
    next threadless =>
      rw [if_pos threadless]
      have awaits := workOnExit_exiting get?_set_self rfl used afterFound still
      exact awaits
    next threads =>
    rw [if_neg threads]
    have awaits := workOnExit_exiting get?_set_self rfl used afterFound still
    exact awaits

end

end ProcScheme

theorem Evolves.awaiting {policy kind pid before after added queue id}
    (evolves : Evolves policy kind scheme pid before after added) (woken : added ⊆ queue)
    (exiting : before.status.isExiting = true) (registered : id ∈ before.awaitingThreadsTerm)
    (threads : before.threads ≠ []) :
    id ∈ queue ∨ (after.status.isExiting = true ∧ id ∈ after.awaitingThreadsTerm ∧
      after.threads ≠ []) := by
  have touched : before.Touched after → after.status.isExiting = true ∧
      id ∈ after.awaitingThreadsTerm ∧ after.threads ≠ [] := by
    intro touched
    refine ⟨?_, touched.awaitingThreadsTerm ▸ registered, ?_⟩
    · rcases touched.status with same | ⟨live, -⟩
      · rw [same]
        exact exiting
      · cases statusEq : before.status <;> simp_all [isExiting, isTerminating]
    · intro threadless
      have same := touched.isEmpty_threads
      simp [threadless, threads] at same
  cases evolves with
  | same | regrouped | session | adopted | adopts => exact .inr ⟨exiting, registered, threads⟩
  | edit edit =>
    cases edit with
    | page changed | touch changed => exact .inr (touched changed)
    | creds derived =>
      rw [derived.status, derived.awaitingThreadsTerm, derived.threads]
      exact .inr ⟨exiting, registered, threads⟩
    | newThread => exact .inr ⟨exiting, registered, by simp⟩
    | startExit => exact .inr ⟨rfl, registered, threads⟩
    | awaitThreads => exact .inr ⟨exiting, mem_append_left _ registered, threads⟩
    | exited _ threadless => exact absurd threadless threads
    | threadDeath rc notExiting => cases notExiting.symm.trans exiting
    | threadDeathExiting => exact .inl (woken registered)
    | _ => exact .inr ⟨exiting, registered, threads⟩

variable {output : Option Response} {event : Event}

namespace Manager

variable {manager manager' : Manager}
  {id : VirtualId} {pid : ProcessId}

def Numbered (manager : Manager) : Prop :=
  ∀ number state, manager.states.get? (.internalId number) = some state →
    number < manager.scheme.nextInternalId

theorem Numbered.step (numbered : manager.Numbered) (reached : procmgr.Reachable manager)
    (stepped : manager.step event = some (manager', output)) : manager'.Numbered := by
  intro number state entry
  obtain ⟨awoken, edits, -⟩ :=
    reachable_edits reached Policy.free_allows stepped
  cases beforeEq : manager.states.get? (.internalId number) with
  | some before => exact (numbered number before beforeEq).trans_le edits.counters_le.2
  | none =>
    rcases states_step stepped with same | serves | enters
    · cases beforeEq.symm.trans (same.symm.trans entry)
    · -- Only a queued request is served under such an identifier.
      cases event with
      | wake kernel =>
        obtain ⟨_, head, rest, queued, woken⟩ := of_step_wake stepped
        have same : head = .internalId number := by simpa [served, queued] using serves
        subst same
        rw [wake, beforeEq] at woken
        cases woken
        cases beforeEq.symm.trans entry
      | request request kernel => cases request <;> cases serves
      | _ => cases serves
    · cases enters.next
      exact enters.numbered

theorem numbered (reached : procmgr.Reachable manager) : manager.Numbered := by
  apply reached.invariant
  · intro number state entry
    cases (Table.get?_empty).symm.trans entry
  · intro before event after output here holds _ stepped
    exact holds.step here stepped

/-- While the process is exiting, the request is queued, or registered with the
process and waiting for a thread. -/
structure ExitRecorded (manager : Manager) (pid : ProcessId) (id : VirtualId) : Prop where
  entry : ∃ tag, manager.states.get? id = some (.awaitingThreadsTermination pid tag)
  kept : ∀ process, manager.scheme.get? pid = some process → process.status.isExiting = true →
    manager.Queued id ∨ (id ∈ process.awaitingThreadsTerm ∧ process.threads ≠ [])

theorem exitRecorded_of_awaits {work after}
    (awaits : ProcScheme.AwaitsThreads work id pid tag after)
    (states : manager.states = work.states) (found : manager.scheme.get? pid = some after) :
    manager.ExitRecorded pid id := by
  refine ⟨⟨tag, states ▸ awaits.entry⟩, ?_⟩
  intro process processFound _
  cases found.symm.trans processFound
  exact .inr ⟨awaits.registered, awaits.threads⟩

theorem ExitRecorded.frame {before} (recorded : manager.ExitRecorded pid id)
    (reached : procmgr.Reachable manager) (stepped : manager.step event = some (manager', output))
    (found : manager.scheme.get? pid = some before) (exiting : before.status.isExiting = true)
    (notServed : manager.served event ≠ some id) : manager'.ExitRecorded pid id := by
  obtain ⟨tag, entry⟩ := recorded.entry
  have known := known_of_found reached found
  have notEvaluated : ¬ manager.Evaluates event id := by
    rintro ⟨⟨kernel, rfl⟩, head⟩
    exact notServed head
  refine ⟨⟨tag, ?_⟩, ?_⟩
  · rcases states_step stepped with same | serves | enters
    · exact same.trans entry
    · exact absurd serves notServed
    · -- The number of a new internal request is not in use.
      cases enters.next
      exact absurd (numbered reached _ _ entry) (lt_irrefl _)
  · intro process processFound _
    rcases recorded.kept before found exiting with queued | ⟨registered, threads⟩
    · exact .inl ((queued_step reached stepped queued).resolve_right notEvaluated)
    obtain ⟨awoken, edits, appended⟩ :=
      later_edits known.registered Policy.free_allows stepped
    have awaiting := edits.preserveQueued (motive := fun queue process => id ∈ queue ∨
        (process.status.isExiting = true ∧ id ∈ process.awaitingThreadsTerm ∧ process.threads ≠ []))
      registerInit_not_later known.used ?_ ?_ ?_ process processFound
    · exact awaiting.imp (fun listed => queued_of_mem (appended listed)) And.right
    · intro queue longer process inside
      exact Or.imp_left fun listed => inside listed
    · rintro kind - scheme old new added queue evolves woken (listed | ⟨still, listed, alive⟩)
      · exact .inl listed
      · exact evolves.awaiting woken still listed alive
    · intro process processFound
      cases found.symm.trans processFound
      exact .inr ⟨exiting, registered, threads⟩

theorem ExitRecorded.wake {kernel rest before after}
    (recorded : manager.ExitRecorded pid id) (reached : procmgr.Reachable manager)
    (found : manager.scheme.get? pid = some before) (exiting : before.status.isExiting = true)
    (afterFound : (manager.wake kernel id rest).1.scheme.get? pid = some after)
    (still : after.status.isExiting = true) :
    (manager.wake kernel id rest).1.ExitRecorded pid id := by
  obtain ⟨tag, entry⟩ := recorded.entry
  unfold Manager.wake at afterFound ⊢
  simp only [entry] at afterFound ⊢
  cases statusEq : before.status with
  | exiting signal code =>
    have awaits := workOnExit_exiting found statusEq
      (known_of_found reached found).used afterFound still
    exact exitRecorded_of_awaits awaits.2 rfl afterFound
  | possiblyRunnable | stopped | exited =>
    rw [statusEq] at exiting
    cases exiting

theorem ExitRecorded.cancel {request} (recorded : manager.ExitRecorded pid (.kernelId request)) :
    (manager.cancel request).1.ExitRecorded pid (.internalId manager.scheme.nextInternalId) := by
  obtain ⟨tag, entry⟩ := recorded.entry
  simp only [Manager.cancel, entry]
  refine ⟨⟨none, Table.get?_insert_self _ _ _⟩, ?_⟩
  intro process _ _
  exact .inl (.inl (mem_append_right _ (mem_singleton_self _)))

end Manager

def PendingState.isExit : PendingState → Bool
  | awaitingThreadsTermination _ _ => true
  | _ => false

def Event.call? : Event → Option (OpCall × Kernel)
  | .request (.call op) kernel => some (op, kernel)
  | _ => none

namespace Manager

variable {manager manager' : Manager}
  {id : VirtualId} {pid : ProcessId}

/-- A call does not come under the identifier of a pending exit, and when it
starts an exit, every thread of the process can be told. -/
def ExitsCleanly (manager : Manager) (event : Event) : Prop :=
  ∀ call ∈ event.call?,
    (∀ state ∈ manager.states.get? (.kernelId call.1.requestId), state.isExit = false) ∧
      ∀ target ∈ manager.exitTarget event, ∀ process ∈ manager.scheme.get? target.1,
        process.status.isTerminating = false →
        (decodeStatus target.2).isSome = true →
        ∀ thread ∈ process.threads, call.2.statusWrite thread.rc = none

instance (manager : Manager) (event : Event) : Decidable (manager.ExitsCleanly event) :=
  inferInstanceAs (Decidable (∀ call ∈ event.call?,
    (∀ state ∈ manager.states.get? (.kernelId call.1.requestId), state.isExit = false) ∧
      ∀ target ∈ manager.exitTarget event, ∀ process ∈ manager.scheme.get? target.1,
        process.status.isTerminating = false →
        (decodeStatus target.2).isSome = true →
        ∀ thread ∈ process.threads, call.2.statusWrite thread.rc = none))

theorem ExitRecorded.step {before after} (recorded : manager.ExitRecorded pid id)
    (reached : procmgr.Reachable manager) (clean : manager.ExitsCleanly event)
    (stepped : manager.step event = some (manager', output))
    (found : manager.scheme.get? pid = some before) (exiting : before.status.isExiting = true)
    (afterFound : manager'.scheme.get? pid = some after)
    (still : after.status.isExiting = true) : ∃ id, manager'.ExitRecorded pid id := by
  by_cases serves : manager.served event = some id
  · cases event with
    | wake kernel =>
      obtain ⟨_, head, rest, queued, same⟩ := of_step_wake stepped
      have first : head = id := by simpa [served, queued] using serves
      subst first
      have woken := @ExitRecorded.wake manager head pid kernel rest before after recorded
        reached found exiting (by rw [same]; exact afterFound) still
      rw [same] at woken
      exact ⟨head, woken⟩
    | request request kernel =>
      cases request with
      | call op =>
        obtain ⟨tag, entry⟩ := recorded.entry
        cases serves
        cases (clean _ rfl).1 _ entry
      | cancellation request =>
        cases serves
        have cancelled := recorded.cancel
        rw [some.inj (of_step_request stepped).2] at cancelled
        exact ⟨_, cancelled⟩
      | _ => cases serves
    | _ => cases serves
  · exact ⟨id, recorded.frame reached stepped found exiting serves⟩

variable {raw : Nat} {kernel : Kernel}

/-- An exit call is handed to `on_exit_start`. -/
theorem exitCall_started {op}
    (target : manager.exitTarget (.request (.call op) kernel) = some (pid, raw))
    (handled : manager.handleScheme kernel (.call op) = some (manager', output)) :
    ∃ work, manager.scheme.onExitStart kernel (manager.states.erase (.kernelId op.requestId))
        manager.awoken (.kernelId op.requestId) pid raw (some op.requestId) = work ∧
      (manager.finish work).1 = manager' := by
  obtain ⟨work, called, finished⟩ := map_eq_some_iff.mp handled
  refine ⟨work, ?_, congrArg Prod.fst finished⟩
  simp only [exitTarget] at target
  split at target
  next opened named =>
    cases target
    cases onCall_outcome.of_eq called with
    | exit exitOpened _ =>
      cases opened.symm.trans exitOpened
      rfl
    | wait _ waitNamed waits _ =>
      cases named.symm.trans waitNamed
      rcases waits with equality | equality <;> cases equality
    | served _ _ _ _ noExit => exact absurd named (noExit _ opened)
  · cases target

theorem notExiting_threadDied {data status thread process after}
    (used : thread.pid < manager.scheme.nextId)
    (notExiting : process.status.isExiting = false)
    (afterFound : (manager.threadDied kernel data thread process status).1.scheme.get?
      thread.pid = some after) : after.status.isExiting = false := by
  have buried : ∀ scheme : ProcScheme, (scheme.set thread.pid (process.dropThread thread.rc)).get?
      thread.pid = some after → after.status.isExiting = false := by
    intro scheme same
    cases (get?_set_self).symm.trans same
    exact notExiting
  simp only [threadDied] at afterFound
  split at afterFound
  next exiting =>
    rw [exiting] at notExiting
    cases notExiting
  split at afterFound
  next threadless =>
    split at afterFound
    · exact buried _ afterFound
    by_contra still
    -- The exit has no thread to wait for, so it completes.
    have lookup : (manager.scheme.buried data thread.pid
        (process.dropThread thread.rc)).takeInternalId.get? thread.pid =
        some (process.dropThread thread.rc) := get?_set_self
    have awaits := onExitStart_exiting lookup notExiting used rfl afterFound
      (by simpa using still) (fun tagged => absurd tagged Bool.false_ne_true)
    exact awaits.1 (by simpa using threadless)
  · exact buried _ afterFound

theorem exitRecorded_started {after} (reached : procmgr.Reachable manager)
    (clean : manager.ExitsCleanly event) (stepped : manager.step event = some (manager', output))
    (target : manager.exitTarget event = some (pid, raw))
    (notExiting : ∀ before, manager.scheme.get? pid = some before → before.status.isExiting = false)
    (afterFound : manager'.scheme.get? pid = some after)
    (still : after.status.isExiting = true) : ∃ id, manager'.ExitRecorded pid id := by
  cases event with
  | threadEvent data status kernel =>
    have noticed := (of_step_threadEvent stepped).2
    simp only [exitTarget] at target
    split at target
    next thread death upgraded dies =>
      cases target
      cases found : manager.scheme.get? thread.pid with
      | none =>
        simp only [onThreadEvent, upgraded, found] at noticed
        cases noticed
        cases found.symm.trans afterFound
      | some before =>
        simp only [onThreadEvent, upgraded, found, dies] at noticed
        have calm := @notExiting_threadDied { manager with phase := .draining } kernel data
          raw thread before after (known_of_found reached found).used
          (notExiting before found) (by rw [noticed]; exact afterFound)
        cases calm.symm.trans still
    · cases target
  | request request kernel =>
    cases request with
    | call op =>
      obtain ⟨work, started, rfl⟩ := exitCall_started target (of_step_request stepped).2
      cases found : manager.scheme.get? pid with
      | none =>
        simp only [onExitStart, found] at started
        subst started
        cases found.symm.trans afterFound
      | some before =>
        have awaits := onExitStart_exiting found (notExiting before found)
          (known_of_found reached found).used started afterFound still
          fun _ => (clean _ rfl).2 _ target before found
        exact ⟨_, exitRecorded_of_awaits awaits.2 rfl afterFound⟩
    | _ => cases target
  | _ => cases target

theorem exits_recorded (reached : procmgr.ReachableWhile ExitsCleanly manager) :
    ∀ pid process, manager.scheme.get? pid = some process → process.status.isExiting = true →
      ∃ id, manager.ExitRecorded pid id := by
  apply reached.invariant
  · intro pid process found
    cases (Table.get?_empty).symm.trans found
  · intro manager event manager' output reachedHere recorded clean stepped pid after afterFound
      still
    have here := reachedHere.reachable
    by_cases earlier : ∃ before, manager.scheme.get? pid = some before ∧
        before.status.isExiting = true
    · obtain ⟨before, found, exiting⟩ := earlier
      obtain ⟨id, old⟩ := recorded pid before found exiting
      exact old.step here clean stepped found exiting afterFound still
    · have notExiting : ∀ before, manager.scheme.get? pid = some before →
          before.status.isExiting = false := by
        intro before found
        by_contra exiting
        exact earlier ⟨before, found, by simpa using exiting⟩
      cases afterEq : after.status with
      | exiting signal code =>
        have decided : after.status.fate? = some (signal, code) := by rw [afterEq]; rfl
        rcases decided_step here stepped afterFound decided with
          ⟨before, found, beforeFate⟩ | ⟨raw, target, -⟩
        · -- It would have exited already.
          have leads := leads_step here stepped found afterFound
          have calm := notExiting before found
          cases beforeEq : before.status with
          | exited first second =>
            rw [beforeEq, afterEq] at leads
            cases leads
          | exiting first second =>
            rw [beforeEq] at calm
            cases calm
          | possiblyRunnable | stopped =>
            rw [beforeEq] at beforeFate
            cases beforeFate
        · exact exitRecorded_started here clean stepped target notExiting afterFound still
      | possiblyRunnable | stopped | exited =>
        rw [afterEq] at still
        cases still

end Manager

/-- The exit of a process makes progress: there is a record of it, and once the
queues are drained and no thread is left, the process has exited. -/
structure ExitProgresses (manager : Manager) (pid : ProcessId) (process : Process)
    (signal : Option Nat) (status : Nat) : Prop where
  recorded : ∃ id tag, manager.states.get? id = some (.awaitingThreadsTermination pid tag) ∧
    (id ∈ process.awaitingThreadsTerm ∨ manager.Queued id)
  completed : ∀ history state after,
    procmgr.Path Manager.ExitsCleanly manager history state →
    state.scheme.get? pid = some after → state.awoken = [] → state.newAwoken = [] →
    after.threads = [] → after.status = .exited signal status

theorem exit_progresses {manager : Manager} {pid : ProcessId} {process : Process}
    {signal : Option Nat} {status : Nat}
    (reached : procmgr.ReachableWhile Manager.ExitsCleanly manager)
    (found : manager.scheme.get? pid = some process)
    (exiting : process.status = .exiting signal status) :
    ExitProgresses manager pid process signal status := by
  constructor
  · have isExiting : process.status.isExiting = true := by rw [exiting]; rfl
    obtain ⟨id, record⟩ := exits_recorded reached pid process found isExiting
    obtain ⟨tag, entry⟩ := record.entry
    refine ⟨id, tag, entry, ?_⟩
    rcases record.kept process found isExiting with queued | ⟨registered, -⟩
    · exact .inr queued
    · exact .inl registered
  · intro history state after path afterFound drained newDrained threadless
    have leads := (leads_path path reached found).2 after afterFound
    rw [exiting] at leads
    rcases leads with still | exited
    · -- The record of a process without threads would be queued.
      have isExiting : after.status.isExiting = true := by rw [still]; rfl
      obtain ⟨id, record⟩ :=
        exits_recorded (reached.path path) pid after afterFound isExiting
      rcases record.kept after afterFound isExiting with (queued | queued) | ⟨-, threads⟩
      · rw [drained] at queued
        cases queued
      · rw [newDrained] at queued
        cases queued
      · exact absurd threadless threads
    · exact exited

def exitCallRun : List Event :=
  boot ++ [fork 1 2 102, call 5 2 .exit 3 0]

theorem exit_progresses_call : ∃ manager process,
    manager.scheme.get? 2 = some process ∧ process.status = .exiting none 3 ∧
    ExitProgresses manager 2 process none 3 := by
  have reached := procmgr.reachableWhile_replay Manager.ExitsCleanly exitCallRun rfl
  exact ⟨_, _, rfl, rfl, exit_progresses reached rfl rfl⟩

/-- A child of init calls exit, the status of its thread cannot be written, and
later the thread dies. -/
def stuckExitRun : List Event :=
  boot ++
    [fork 1 2 102, .request (.call (callOp 5 2 .exit 3 0))
        { kernel 9 0 with statusWrite := fun _ => some .EBADF }] ++
    rest ++ [death 102, .drained]

/-- The process is exiting without a thread, and nothing is pending. -/
theorem exit_stuck : ∃ manager process, procmgr.Reachable manager ∧
    manager.scheme.get? 2 = some process ∧ process.status = .exiting none 3 ∧
    process.threads = [] ∧ manager.phase = .waiting ∧
    ¬ ∃ id tag, manager.states.get? id = some (.awaitingThreadsTermination 2 tag) ∧
      (id ∈ process.awaitingThreadsTerm ∨ manager.Queued id) := by
  have reached := procmgr.reachable_replay stuckExitRun rfl
  refine ⟨_, _, reached, rfl, rfl, rfl, rfl, ?_⟩
  rintro ⟨id, tag, entry, -⟩
  cases (Table.get?_empty).symm.trans entry

end EosBase.Procmgr
