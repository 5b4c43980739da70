import EosBase.Procmgr.Queues

/-!
# Real-time queues over whole runs

Any interleaving of Sigq, Kill and Sigdeq calls, by any processes.  In between
user space may write to its signal pages, as long as it leaves the bits of the
real-time signals alone.
-/

namespace EosBase.Procmgr

open ProcScheme Manager List Option Scenario

namespace Manager

/-- A Sigq, Kill or Sigdeq call, and the process on whose handle it is made. -/
def signalCall? (manager : Manager) : Event → Option (ProcessId × ProcCall × OpCall)
  | .request (.call op) _ =>
    match manager.scheme.handles.get? op.fd, op.procCall with
    | some (.proc pid), some verb =>
      if verb = .sigq ∨ verb = .kill ∨ verb = .sigdeq then some (pid, verb, op) else none
    | _, _ => none
  | _ => none

def SignalsOnly (manager : Manager) (event : Event) : Prop :=
  match event with
  | .request _ _ => (manager.signalCall? event).isSome = true
  | .userStore pid procPage _ => ∀ process ∈ manager.scheme.get? pid, ∀ pctl ∈ process.sigPctl,
      ∀ index < 32, procPage.pending.getLsbD (32 + index) = pctl.pending.getLsbD (32 + index)
  | .wake _ => False
  | .threadEvent _ _ _ => False
  | _ => True

instance (manager : Manager) (event : Event) : Decidable (manager.SignalsOnly event) :=
  match event with
  | .request _ _ => inferInstanceAs (Decidable (_ = _))
  | .userStore pid procPage _ => inferInstanceAs (Decidable (∀ process ∈ manager.scheme.get? pid,
      ∀ pctl ∈ process.sigPctl, ∀ index < 32,
        procPage.pending.getLsbD (32 + index) = pctl.pending.getLsbD (32 + index)))
  | .wake _ => inferInstanceAs (Decidable False)
  | .threadEvent _ _ _ => inferInstanceAs (Decidable False)
  | .appendAwoken => inferInstanceAs (Decidable True)
  | .drained => inferInstanceAs (Decidable True)
  | .socketEvent => inferInstanceAs (Decidable True)
  | .wouldBlock => inferInstanceAs (Decidable True)

/-- The argument that a process takes in a step for signal `33 + index`. -/
def accepted (pid : ProcessId) (index : Nat) (taken : Transition Manager Event Response) :
    Option RtSigInfo :=
  match taken.before.signalCall? taken.event with
  | some (callerPid, .sigq, op) =>
    if op.payload.length = rtSigInfoSize ∧ op.arg2 = 33 + index then
      (taken.before.scheme.get? pid).bind
        (taken.before.scheme.takes callerPid op.killTarget (.queued op.payload) op.arg2 pid)
    else
      none
  | _ => none

/-- The argument that a step returns to a process that asks for signal
`33 + index`. -/
def dequeued (pid : ProcessId) (index : Nat) (taken : Transition Manager Event Response) :
    Option RtSigInfo :=
  match taken.before.signalCall? taken.event, taken.output with
  | some (callerPid, .sigdeq, op), some ⟨_, .ok _, .bytes info, _⟩ =>
    if callerPid = pid ∧ readU32 op.payload = some index then some info else none
  | _, _ => none

end Manager

/-- What a step does to the queues of one process: what was queued and what it
takes is what it returns and what is queued then. -/
structure QueueStep (taken : Transition Manager Event Response) (pid : ProcessId)
    (before after : Process) : Prop where
  found : taken.after.scheme.get? pid = some after
  fifo : ∀ index, before.queue index ++ (accepted pid index taken).toList =
    (dequeued pid index taken).toList ++ after.queue index
  exactQueues : before.ExactQueues → after.ExactQueues
  unmoved : ∀ response ∈ taken.output, ∀ errno, response.result = .error errno →
    errno ≠ .ERESTART → before.Unmoved (taken.before.scheme.get? before.ppid = none) after

variable {before : Process} {pid : ProcessId}

namespace QueueStep

theorem idle {taken} (noCall : taken.before.signalCall? taken.event = none)
    (found : taken.after.scheme.get? pid = some before) : QueueStep taken pid before before := by
  refine ⟨found, ?_, id, fun _ _ _ _ _ => .refl _⟩
  simp [Manager.accepted, Manager.dequeued, noCall]

end QueueStep

variable {callerPid : ProcessId}

theorem ProcScheme.takes_spec {mode} {scheme : ProcScheme} {target signal process info}
    (taken : scheme.takes callerPid target mode signal pid process = some info) :
    mode = .queued info ∧ 33 ≤ signal ∧ signal ≤ 64 ∧
      (process.queue (signal - 33)).length < 32 := by
  obtain ⟨caller, _, taken⟩ := bind_eq_some_iff.mp taken
  split at taken
  · cases mode with
    | idempotent => cases taken
    | queued argument =>
      simp only [KillMode.accepted] at taken
      split at taken
      next checks =>
        cases taken
        exact ⟨rfl, checks.2.1, checks.2.2.1, checks.2.2.2.2.2⟩
      · cases taken
  · cases taken

variable {manager after : Manager} {event : Event} {output : Option Response} {op : OpCall}

namespace Manager

variable {kernel : Kernel}

/-- A Kill or Sigq call that reaches `on_kill`. -/
theorem queueStep_kill {mode verb} (admits : kernel.Admits manager.scheme)
    (called : manager.signalCall? event = some (callerPid, verb, op))
    (verbs : verb = .kill ∧ mode = .idempotent ∨
      verb = .sigq ∧ op.payload.length = rtSigInfoSize ∧ mode = .queued op.payload)
    (scheme : after.scheme = (manager.scheme.onKill kernel callerPid op.killTarget op.arg2 mode
      manager.awoken).scheme)
    (answered : ∀ response ∈ output, response.result =
      orZero (manager.scheme.onKill kernel callerPid op.killTarget op.arg2 mode
        manager.awoken).result)
    (found : manager.scheme.get? pid = some before) :
    ∃ last, QueueStep ⟨manager, event, output, after⟩ pid before last := by
  obtain ⟨last, kills⟩ := onKill_kills admits found
  refine ⟨last, scheme ▸ kills.found, ?_, ?_, ?_⟩
  · intro index
    have noDequeue : dequeued pid index ⟨manager, event, output, after⟩ = none := by
      rcases verbs with ⟨rfl, _⟩ | ⟨rfl, _⟩ <;> simp [dequeued, called]
    have accepts : (accepted pid index ⟨manager, event, output, after⟩).toList =
        if index = op.arg2 - 33 then
          (manager.scheme.takes callerPid op.killTarget mode op.arg2 pid before).toList
        else [] := by
      rcases verbs with ⟨rfl, rfl⟩ | ⟨rfl, size, rfl⟩
      · have nothing : manager.scheme.takes callerPid op.killTarget .idempotent op.arg2 pid
            before = none := by
          cases taken : manager.scheme.takes callerPid op.killTarget .idempotent op.arg2 pid
              before with
          | none => rfl
          | some info => cases (takes_spec taken).1
        simp [accepted, called, nothing]
      · simp only [accepted, called, size, true_and, found, bind_some]
        cases taken : manager.scheme.takes callerPid op.killTarget (.queued op.payload) op.arg2
            pid before with
        | none => simp
        | some info =>
          obtain ⟨_, low, _⟩ := takes_spec taken
          have same : op.arg2 = 33 + index ↔ index = op.arg2 - 33 := by omega
          simp only [same]
          split <;> rfl
    rw [noDequeue, accepts, kills.received.queue]
    rfl
  · intro exact
    refine kills.received.exactQueues exact ?_
    intro taken
    obtain ⟨info, taken⟩ := isSome_iff_exists.mp taken
    exact (takes_spec taken).2.2.2
  · intro response answer errno failed other
    apply kills.unmoved errno _ other
    rw [answered response answer] at failed
    cases result : (manager.scheme.onKill kernel callerPid op.killTarget op.arg2 mode
        manager.awoken).result with
    | ok value =>
      rw [result] at failed
      cases failed
    | error reported =>
      rw [result] at failed
      cases failed
      rfl

/-- A call that is refused before it reaches `on_kill`. -/
theorem queueStep_refused {verb} (called : manager.signalCall? event = some (callerPid, verb, op))
    (verbs : verb = .kill ∨ verb = .sigq ∧ (64 < op.arg2 ∨ op.payload.length ≠ rtSigInfoSize))
    (scheme : after.scheme = manager.scheme) (found : manager.scheme.get? pid = some before) :
    QueueStep ⟨manager, event, output, after⟩ pid before before := by
  refine ⟨scheme ▸ found, ?_, id, fun _ _ _ _ _ => .refl _⟩
  rcases verbs with rfl | ⟨rfl, large | size⟩
  · simp [accepted, dequeued, called]
  · simp only [accepted, dequeued, called, found, bind_some]
    cases taken : manager.scheme.takes callerPid op.killTarget (.queued op.payload) op.arg2 pid
        before with
    | none => simp
    | some info =>
      have small := (takes_spec taken).2.2.1
      omega
  · simp [accepted, dequeued, called, size]

theorem queueStep_sigdeq {result}
    (called : manager.signalCall? event = some (callerPid, .sigdeq, op))
    (done : manager.scheme.onSigdeq callerPid op.payload = (after.scheme, result))
    (answered : output = some (match result with
      | .ok info => ⟨op.requestId, .ok 0, .bytes info, none⟩
      | .error errno => ⟨op.requestId, .error errno, .nothing, none⟩))
    (found : manager.scheme.get? pid = some before) :
    ∃ last, QueueStep ⟨manager, event, output, after⟩ pid before last := by
  have noAccept : ∀ index, accepted pid index ⟨manager, event, output, after⟩ = none := by
    simp [accepted, called]
  rcases onSigdeq_cases with
    ⟨errno, failed⟩ | ⟨index, info, process, last, decoded, processFound, taken, succeeded⟩
  · obtain ⟨scheme, rfl⟩ := Prod.mk.inj (done.symm.trans failed)
    refine ⟨before, scheme ▸ found, ?_, id, fun _ _ _ _ _ => .refl _⟩
    intro index
    rw [noAccept, answered]
    simp [dequeued, called]
  · obtain ⟨scheme, rfl⟩ := Prod.mk.inj (done.symm.trans succeeded)
    subst answered
    have dequeues : ∀ other, dequeued pid other
        ⟨manager, event, some ⟨op.requestId, .ok 0, .bytes info, none⟩, after⟩ =
        if callerPid = pid ∧ other = index then some info else none := by
      intro other
      simp only [dequeued, called, decoded, some.injEq, eq_comm]
    by_cases same : pid = callerPid
    · subst same
      cases found.symm.trans processFound
      refine ⟨last, by rw [scheme]; simp, ?_, taken.exactQueues, ?_⟩
      · intro other
        rw [noAccept, dequeues]
        by_cases own : other = index
        · subst own
          simp [taken.queue]
        · simp [own, taken.others other own]
      · rintro response ⟨⟩ errno failed
        cases failed
    · refine ⟨before, ?_, ?_, id, fun _ _ _ _ _ => .refl _⟩
      · rw [scheme, get?_set, if_neg same]
        exact found
      · intro other
        rw [noAccept, dequeues, if_neg (fun both => same both.1.symm)]
        simp

theorem queueStep_userStore {other procPage threadPage}
    (event_eq : event = .userStore pid procPage threadPage)
    (respects : ∀ process ∈ manager.scheme.get? pid, ∀ pctl ∈ process.sigPctl,
      ∀ index < 32, procPage.pending.getLsbD (32 + index) = pctl.pending.getLsbD (32 + index))
    (found : manager.scheme.get? other = some before) : ∃ last, QueueStep ⟨manager, event, none,
      { manager with scheme := userStore manager.scheme pid procPage threadPage }⟩ other before
      last := by
  have noCall : manager.signalCall? event = none := by rw [event_eq]; rfl
  by_cases same : other = pid
  · subst same
    have stored := get?_modify manager.scheme other other fun process =>
      { process with
        sigPctl := process.sigPctl.map fun _ => procPage
        threads := process.threads.map fun thread =>
          thread.mapSigCtrl fun _ => threadPage thread.rc }
    rw [if_pos rfl, found, map_some] at stored
    refine ⟨_, stored, ?_, ?_, by rintro response ⟨⟩⟩
    · intro index
      simp only [accepted, dequeued, noCall, toList_none, append_nil, nil_append]
      rfl
    · intro exact
      refine ⟨exact.bounded, ?_⟩
      intro index small
      have bit : Process.pendingBit
          { before with
            sigPctl := before.sigPctl.map fun _ => procPage
            threads := before.threads.map fun thread =>
              thread.mapSigCtrl fun _ => threadPage thread.rc } index =
          before.pendingBit index := by
        unfold Process.pendingBit Process.isPending
        cases mapped : before.sigPctl with
        | none => rfl
        | some pctl =>
          exact respects before found pctl mapped index small
      rw [bit]
      exact exact.pending index small
  · refine ⟨before, .idle noCall ?_⟩
    rw [userStore, get?_modify, if_neg same]
    exact found

theorem queueStep_call (allowed : manager.SignalsOnly (.request (.call op) kernel))
    (stepped : procmgr.step manager (.request (.call op) kernel) = some (after, output))
    (found : manager.scheme.get? pid = some before) :
    ∃ last, QueueStep ⟨manager, .request (.call op) kernel, output, after⟩ pid before last := by
  obtain ⟨admits, work, worked, finished⟩ :=
    (of_step_request stepped).imp_right map_eq_some_iff.mp
  obtain ⟨⟨callerPid, verb, op'⟩, called⟩ := isSome_iff_exists.mp allowed
  have handles := called
  simp only [signalCall?] at handles
  split at handles
  case h_2 => cases handles
  next handle named opened asked =>
  split at handles
  case isFalse => cases handles
  next verbs =>
  cases handles
  simp only [onCall, opened, asked] at worked
  rcases verbs with rfl | rfl | rfl
  · simp only [onProcCall] at worked
    split at worked
    next large =>
      cases worked
      cases finished
      exact ⟨before, queueStep_refused called (.inr ⟨rfl, .inl large⟩) rfl found⟩
    split at worked
    next size =>
      cases worked
      cases finished
      exact ⟨before, queueStep_refused called (.inr ⟨rfl, .inr size⟩) rfl found⟩
    next size =>
    cases worked
    cases finished
    refine queueStep_kill admits called (.inr ⟨rfl, by simpa using size, rfl⟩) rfl ?_ found
    rintro response ⟨⟩
    rfl
  · simp only [onProcCall] at worked
    split at worked
    · cases worked
      cases finished
      exact ⟨before, queueStep_refused called (.inl rfl) rfl found⟩
    cases worked
    cases finished
    refine queueStep_kill admits called (.inl ⟨rfl, rfl⟩) rfl ?_ found
    rintro response ⟨⟩
    rfl
  · simp only [onProcCall] at worked
    split at worked
    next scheme info done =>
      cases worked
      cases finished
      exact queueStep_sigdeq called done rfl found
    next scheme errno done =>
    cases worked
    cases finished
    exact queueStep_sigdeq called done rfl found

theorem queueStep (allowed : manager.SignalsOnly event)
    (stepped : procmgr.step manager event = some (after, output))
    (found : manager.scheme.get? pid = some before) :
    ∃ last, QueueStep ⟨manager, event, output, after⟩ pid before last := by
  cases event with
  | request request kernel =>
    cases request with
    | call op => exact queueStep_call allowed stepped found
    | _ => cases allowed
  | userStore other procPage threadPage =>
    cases stepped
    exact queueStep_userStore rfl allowed found
  | wake kernel => exact allowed.elim
  | threadEvent data status kernel => exact allowed.elim
  | _ =>
    refine ⟨before, .idle rfl ?_⟩
    simp only [procmgr, step] at stepped
    split at stepped
    · cases stepped
      exact found
    · cases stepped

end Manager

/-- The queues are bounded and first-in first-out, their pending bits are exact,
and a call that fails leaves them alone. -/
theorem realtime_queues {origin manager : Manager}
    {history : List (Transition Manager Event Response)}
    (path : procmgr.Path Manager.SignalsOnly origin history manager)
    (exact : ∀ pid process, origin.scheme.get? pid = some process → process.ExactQueues) :
    (∀ pid before, origin.scheme.get? pid = some before →
      ∃ after, manager.scheme.get? pid = some after ∧ after.ExactQueues ∧
        ∀ index, before.queue index ++ history.filterMap (accepted pid index) =
          history.filterMap (dequeued pid index) ++ after.queue index) ∧
    (∀ taken ∈ history, ∀ response ∈ taken.output, ∀ errno,
      response.result = .error errno → errno ≠ .ERESTART →
      ∀ pid before, taken.before.scheme.get? pid = some before →
        ∃ after, taken.after.scheme.get? pid = some after ∧
          before.Unmoved (taken.before.scheme.get? before.ppid = none) after) := by
  induction path with
  | start =>
    refine ⟨?_, by simp⟩
    intro pid before found
    exact ⟨before, found, exact pid before found, by simp⟩
  | @step history state event output next earlier allowed stepped ih =>
    rcases ih with ⟨queues, failures⟩
    constructor
    · intro pid before found
      obtain ⟨middle, middleFound, middleExact, fifo⟩ := queues pid before found
      obtain ⟨after, done⟩ := queueStep allowed stepped middleFound
      refine ⟨after, done.found, done.exactQueues middleExact, ?_⟩
      intro index
      have single : ∀ (read : Transition Manager Event Response → Option RtSigInfo)
          (taken : Transition Manager Event Response),
          [taken].filterMap read = (read taken).toList := by
        intro read taken
        cases reads : read taken <;> simp [reads]
      rw [filterMap_append, filterMap_append, single, single, ← append_assoc,
        fifo index, append_assoc, done.fifo index, append_assoc]
    · intro taken member response answered errno failed other pid before found
      rcases mem_append.mp member with old | new
      · exact failures taken old response answered errno failed other pid before found
      rw [mem_singleton] at new
      subst new
      obtain ⟨after, done⟩ := queueStep allowed stepped found
      exact ⟨after, done.found, done.unmoved response answered errno failed other⟩

def openPage : Sigcontrol where
  word _ := BitVec.allOnes 64
  senderInfos _ := none

def openKernel (handleKey : Nat) : Kernel :=
  { kernel handleKey 0 with threadPage := .ok openPage }

/-- Init maps its signal pages: of its thread, through handle 2, and its own. -/
def pagesRun : List Event :=
  boot ++
    [.request (.dup 3 1 ['t', 'h', 'r', 'e', 'a', 'd', '-', '0']) (openKernel 2),
      .request (.call { callOp 4 2 .kill 0 0 with threadCall := some .syncSigTctl })
        (openKernel 9),
      call 5 1 .syncSigPctl 0 0]

def sigqSelf : OpCall :=
  { callOp 6 1 .sigq 1 33 with payload := replicate 24 7 }

/-- A Sigq to oneself reports ERESTART, and has queued the signal. -/
theorem failing_call_queues : ∃ (before after : Manager) (response : Response)
    (process process' : Process),
    procmgr.Reachable before ∧
    procmgr.step before (.request (.call sigqSelf) (openKernel 9)) = some (after, some response) ∧
    response.result = .error .ERESTART ∧
    before.scheme.get? initPid = some process ∧ process.queue 0 = [] ∧
    after.scheme.get? initPid = some process' ∧ process'.queue 0 = [replicate 24 7] := by
  have reached := procmgr.reachable_replay pagesRun rfl
  exact ⟨_, _, _, _, _, reached, rfl, rfl, rfl, rfl, rfl, rfl⟩

def pagesMapped : Manager :=
  ((procmgr.replay (fun _ _ => True) procmgr.start pagesRun).get rfl).2

theorem exactQueues_pagesMapped (pid : ProcessId) {process}
    (found : pagesMapped.scheme.get? pid = some process) : process.ExactQueues := by
  have known : pid ∈ pagesMapped.scheme.processes.keys :=
    (pagesMapped.scheme.processes.mem_keys_iff).mpr ⟨process, found⟩
  have only : pagesMapped.scheme.processes.keys = [initPid] := rfl
  rw [only, mem_singleton] at known
  subst known
  cases found
  constructor
  · intro index
    exact Nat.zero_le 32
  · intro index _
    constructor
    · intro marked
      have clear : (0#64).getLsbD (32 + index) = true := marked
      simp at clear
    · intro nonempty
      exact (nonempty rfl).elim

/-- Init takes out again what it has queued to itself. -/
theorem realtime_queues_self : ∃ (manager : Manager) (process : Process)
    (history : List (Transition Manager Event Response)),
    procmgr.Path Manager.SignalsOnly pagesMapped history manager ∧
    manager.scheme.get? initPid = some process ∧ process.ExactQueues ∧
    [replicate 24 7] =
      history.filterMap (dequeued initPid 0) ++ process.queue 0 := by
  have path := procmgr.path_replay Manager.SignalsOnly [.request (.call sigqSelf) (openKernel 9),
      .request (.call { callOp 7 1 .sigdeq 0 0 with
        payload := replicate 24 0 }) (openKernel 9)] pagesMapped rfl
  obtain ⟨process, found, exact, fifo⟩ :=
    (realtime_queues path exactQueues_pagesMapped).1 initPid _ rfl
  exact ⟨_, process, _, path, found, exact, fifo 0⟩

end EosBase.Procmgr
