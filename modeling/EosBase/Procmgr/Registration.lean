import EosBase.Procmgr.Effects.Step

/-!
# Registration

Init is registered once, and before that there is no process, no process handle
and no pending request.
-/

namespace EosBase.Procmgr

open Redox Option Table ProcScheme Kind Manager

variable {policy : Policy} {kinds : List Kind} {first second : ProcScheme.Awakening}

theorem Edits.handles_eq (edits : Edits policy kinds first second)
    (fixed : Kind.handles ∉ kinds.flatMap Kind.expand) :
    second.1.handles = first.1.handles ∧ second.1.initClaimed = first.1.initClaimed := by
  apply edits.preserveSmall
  case initially => exact ⟨rfl, rfl⟩
  intro kind allowed before after edit small same
  cases edit with
  | wait | complete => exact absurd small (by decide)
  | handles => exact absurd allowed fixed
  | reap pid =>
    obtain ⟨_, _, frame⟩ := reap_frame
    rwa [frame]
  | reparent current child =>
    obtain ⟨_, frame⟩ := reparent_frame
    rwa [frame]
  | internal _ _ handles claimed _ _ => exact ⟨handles.trans same.1, claimed.trans same.2⟩
  | process | fork | registerInit | regroup | setSid => exact same

/-- The handle of init is still to come, or has not been used. -/
def ProcScheme.Unregistered (scheme : ProcScheme) : Prop :=
  scheme.initClaimed = false ∨ ∃ id, scheme.handles.get? id = some .init

structure Manager.Pristine (manager : Manager) : Prop where
  blank : Blank manager.scheme
  noProc : ∀ id pid, manager.scheme.handles.get? id ≠ some (.proc pid)
  noThread : ∀ id thread, manager.scheme.handles.get? id ≠ some (.thread thread)
  noPending : ∀ id state, manager.states.get? id = some state → state = .placeholder

structure Manager.Registration (manager : Manager) : Prop where
  single : ∀ first second, manager.scheme.handles.get? first = some .init →
    manager.scheme.handles.get? second = some .init → first = second
  claimed : ∀ id, manager.scheme.handles.get? id = some .init →
    manager.scheme.initClaimed = true
  pristine : manager.scheme.Unregistered → manager.Pristine

namespace Manager

variable {manager manager' : Manager} {event : Event} {output : Option Response} {kernel : Kernel}
  {fd id : Nat} {motive : ProcScheme → Prop}

structure Registers (manager manager' : Manager) : Prop where
  registration : manager'.Registration
  back : manager'.scheme.Unregistered → manager.scheme.Unregistered

theorem Registration.same (registration : manager.Registration) : manager.Registers manager :=
  ⟨registration, id⟩

theorem Registration.blank (registration : manager.Registration) (id : Nat)
    (opened : manager.scheme.handles.get? id = some .init) : Blank manager.scheme :=
  (registration.pristine (.inr ⟨id, opened⟩)).blank

theorem registration_start : start.Registration := by
  have opened : ∀ id handle, start.scheme.handles.get? id = some handle → handle = .schemeRoot := by
    intro id handle found
    simp only [start, get?_insert, get?_empty] at found
    split at found
    · exact (some.inj found).symm
    · cases found
  refine ⟨?_, ?_, ?_⟩
  · intro first second found
    cases opened first _ found
  · intro id found
    cases opened id _ found
  · intro _
    refine ⟨⟨fun pid => get?_empty, fun grp => get?_empty⟩, ?_, ?_, ?_⟩
    · intro id pid found
      cases opened id _ found
    · intro id thread found
      cases opened id _ found
    · intro id state found
      cases found

theorem Registration.of_handles (registration : manager.Registration)
    (sameClaim : manager'.scheme.initClaimed = manager.scheme.initClaimed)
    (old : ∀ id, manager'.scheme.handles.get? id = some .init →
      manager.scheme.handles.get? id = some .init)
    (pristine : manager.Pristine → manager'.Pristine) : manager.Registers manager' := by
  have back : manager'.scheme.Unregistered → manager.scheme.Unregistered := by
    rintro (unclaimed | ⟨id, found⟩)
    · exact .inl (sameClaim ▸ unclaimed)
    · exact .inr ⟨id, old id found⟩
  refine ⟨⟨?_, ?_, ?_⟩, back⟩
  · intro first second firstFound secondFound
    exact registration.single first second (old first firstFound) (old second secondFound)
  · intro id found
    rw [sameClaim]
    exact registration.claimed id (old id found)
  · intro unregistered
    exact pristine (registration.pristine (back unregistered))

theorem Pristine.of_scheme (pristine : manager.Pristine) (scheme : manager'.scheme = manager.scheme)
    (noPending : ∀ id state, manager'.states.get? id = some state → state = .placeholder) :
    manager'.Pristine := by
  refine ⟨?_, ?_, ?_, noPending⟩
  · rw [scheme]
    exact pristine.blank
  · rw [scheme]
    exact pristine.noProc
  · rw [scheme]
    exact pristine.noThread

theorem Pristine.of_handles {handles claimed} (pristine : manager.Pristine)
    (old : ∀ id handle, handles.get? id = some handle →
      manager.scheme.handles.get? id = some handle ∨
        (∀ pid, handle ≠ .proc pid) ∧ ∀ thread, handle ≠ .thread thread) : Pristine { manager with
      scheme := { manager.scheme with handles := handles, initClaimed := claimed } } := by
  refine ⟨pristine.blank, ?_, ?_, pristine.noPending⟩
  · intro id pid found
    rcases old id _ found with earlier | ⟨notProc, -⟩
    · exact pristine.noProc id pid earlier
    · exact notProc pid rfl
  · intro id thread found
    rcases old id _ found with earlier | ⟨-, notThread⟩
    · exact pristine.noThread id thread earlier
    · exact notThread thread rfl

/-- A `dup` adds at most one handle, of a process or of a thread. -/
theorem handles_onDupProc {buf} {scheme : ProcScheme} {pid} :
    (scheme.onDupProc kernel pid buf).1.initClaimed = scheme.initClaimed ∧
      ∀ id, (scheme.onDupProc kernel pid buf).1.handles.get? id = some .init →
        scheme.handles.get? id = some .init := by
  obtain ⟨made, source, result⟩ := onDupProc_cases kernel pid buf
  have same : made.handles = scheme.handles ∧ made.initClaimed = scheme.initClaimed := by
    rcases source with rfl | ⟨_, rfl⟩ | ⟨_, rfl⟩
    · exact ⟨rfl, rfl⟩
    -- `fork` and `new_thread` leave the handles to `on_dup`.
    · have edits : Edits .free _ (scheme, []) ((scheme.fork kernel pid).1, []) :=
        fork_edits fun _ _ => trivial
      exact edits.handles_eq (by decide)
    · have edits : Edits .free _ (scheme, []) ((scheme.newThread kernel pid).1, []) :=
        newThread_edits fun _ _ => trivial
      exact edits.handles_eq (by decide)
  rcases result with done | ⟨handle, notInit, done⟩
  · rw [done]
    exact ⟨same.2, fun id found => same.1 ▸ found⟩
  rw [done]
  refine ⟨same.2, ?_⟩
  intro id found
  rcases of_insert found with ⟨_, isInit⟩ | ⟨_, found⟩
  · exact absurd isInit.symm notInit
  · exact same.1 ▸ found

section

variable (registration : manager.Registration)

include registration

theorem registration_openAt {path readOnly uid} :
    Ends (fun opened => manager.Registers { manager with scheme := opened.1 })
      (manager.scheme.onOpenat kernel fd path readOnly uid) := by
  -- A handle that no process has yet.
  have other : ∀ handle : Handle, handle ≠ .init → (∀ pid, handle ≠ .proc pid) →
      (∀ thread, handle ≠ .thread thread) →
      manager.Registers { manager with scheme := { manager.scheme with
        handles := manager.scheme.handles.insert kernel.handleKey handle } } := by
    intro handle notInit notProc notThread
    refine registration.of_handles rfl ?_ ?_
    · intro id found
      rcases of_insert found with ⟨_, same⟩ | ⟨_, found⟩
      · exact absurd same.symm notInit
      · exact found
    · intro pristine
      refine pristine.of_handles fun id added found => ?_
      rcases of_insert found with ⟨_, rfl⟩ | ⟨_, found⟩
      · exact .inr ⟨notProc, notThread⟩
      · exact .inl found
  simp only [onOpenat]
  split
  · trivial
  · split
    · split
      · exact registration.same
      next unclaimed =>
      have unclaimed : manager.scheme.initClaimed = false := by simpa using unclaimed
      have noInit : ∀ id, manager.scheme.handles.get? id ≠ some .init := by
        intro id found
        rw [registration.claimed id found] at unclaimed
        cases unclaimed
      have onlyNew : ∀ id,
          (manager.scheme.handles.insert kernel.handleKey .init).get? id = some .init →
          id = kernel.handleKey := by
        intro id found
        rw [get?_insert] at found
        split at found
        next equality => exact equality
        · exact absurd found (noInit id)
      have pristine := registration.pristine (.inl unclaimed)
      refine ⟨⟨?_, fun _ _ => rfl, ?_⟩, fun _ => .inl unclaimed⟩
      · intro first second firstFound secondFound
        rw [onlyNew first firstFound, onlyNew second secondFound]
      · intro _
        refine pristine.of_handles fun id added found => ?_
        rcases of_insert found with ⟨_, rfl⟩ | ⟨_, found⟩
        · exact .inr ⟨by simp, by simp⟩
        · exact .inl found
    split
    · exact other .ps (by simp) (by simp) (by simp)
    split
    · split
      · exact registration.same
      split
      · exact registration.same
      · exact other .procCredsCapability (by simp) (by simp) (by simp)
    · exact registration.same
  · exact registration.same

theorem registration_dup {buf} : Ends
    (fun made => manager.Registers { manager with scheme := made.1 })
      (manager.scheme.onDup kernel fd buf) := by
  unfold onDup
  split
  · trivial
  next pid opened =>
    rcases handles_onDupProc with ⟨claimed, kept⟩
    exact registration.of_handles claimed kept fun pristine =>
      absurd opened (pristine.noProc fd pid)
  · split
    · exact registration.same
    · exact registration.same
  · exact registration.same

theorem registration_sendFd : Ends (fun sent => manager.Registers { manager with scheme := sent.1 })
      (manager.scheme.onSendfd kernel id) := by
  unfold onSendfd
  split
  · trivial
  next opened =>
    split
    · exact registration.same
    -- The only handle of init becomes the one of its process.
    have noInit : ∀ other,
        (manager.scheme.handles.insert id (.proc initPid)).get? other ≠ some .init := by
      intro other found
      rw [get?_insert] at found
      split at found
      · cases found
      next different => exact different (registration.single other id found opened)
    refine ⟨⟨?_, ?_, ?_⟩, fun _ => .inr ⟨id, opened⟩⟩
    · intro first second found
      exact absurd found (noInit first)
    · intro other found
      exact absurd found (noInit other)
    · rintro (unclaimed | ⟨other, found⟩)
      · have claimed := registration.claimed id opened
        rw [show manager.scheme.initClaimed = false from unclaimed] at claimed
        cases claimed
      · exact absurd found (noInit other)
  · exact registration.same

end

section

variable (pristine : manager.Pristine)

include pristine

theorem Pristine.onCall {states awoken op} : Ends
    (fun work => work.scheme = manager.scheme ∧ work.states = states)
      (manager.scheme.onCall kernel states awoken op) := by
  unfold ProcScheme.onCall
  split
  · trivial
  · exact ⟨rfl, rfl⟩
  next thread opened => exact absurd opened (pristine.noThread op.fd thread)
  next pid opened => exact absurd opened (pristine.noProc op.fd pid)
  · exact ⟨rfl, rfl⟩
  · split
    · split
      · exact ⟨rfl, rfl⟩
      · exact ⟨rfl, rfl⟩
    · exact ⟨rfl, rfl⟩
  · exact ⟨rfl, rfl⟩

theorem Pristine.erase (erased : VirtualId) (id : VirtualId) (state : PendingState)
    (found : (manager.states.erase erased).get? id = some state) : state = .placeholder := by
  exact pristine.noPending id state (of_erase found).2

theorem Pristine.wake (kernel : Kernel) (id : VirtualId)
    (rest : List VirtualId) : (manager.wake kernel id rest).1.Pristine := by
  unfold Manager.wake
  split
  · exact pristine.of_scheme rfl pristine.noPending
  next state pending =>
  cases pristine.noPending id state pending
  refine pristine.of_scheme rfl ?_
  intro other state found
  rcases of_insert found with ⟨_, same⟩ | ⟨_, found⟩
  · exact same
  · exact pristine.noPending other state found

theorem Pristine.cancel (id : Nat) : (manager.cancel id).1.Pristine := by
  simp only [Manager.cancel]
  split
  next pending => cases pristine.noPending _ _ pending
  next pending => cases pristine.noPending _ _ pending
  · exact pristine.of_scheme rfl (pristine.erase _)
  · exact pristine

theorem Pristine.onThreadEvent (kernel : Kernel) (data : Nat) (status : ContextStatus) :
    (manager.onThreadEvent kernel data status).1.Pristine := by
  unfold Manager.onThreadEvent
  split
  · exact pristine
  next thread upgraded =>
  obtain ⟨ref, -, upgraded⟩ := bind_eq_some_iff.mp upgraded
  simp [upgrade, pristine.blank.1] at upgraded

end

section

variable (registration : manager.Registration)

include registration

theorem registration_quiet (stepped : manager.step event = some (manager', output))
    (fixed : Kind.handles ∉ (eventKinds event).flatMap Kind.expand)
    (pristine : manager.Pristine → manager'.Pristine) : manager.Registers manager' := by
  obtain ⟨awoken, edits, -⟩ :=
    step_edits registration.blank Policy.free_allows stepped
  rcases edits.handles_eq fixed with ⟨handles, claimed⟩
  exact registration.of_handles claimed (fun id found => handles ▸ found) pristine

theorem registration_request {request}
    (stepped : manager.step (.request request kernel) = some (manager', output)) :
    manager.Registers manager' := by
  have handled := (of_step_request stepped).2
  have responds {requestId : Nat} {done : Option (ProcScheme × Except Errno Nat)}
      (ends : Ends (fun made => manager.Registers { manager with scheme := made.1 }) done)
      (responded : done.map (manager.respond requestId) = some (manager', output)) :
      manager.Registers manager' := by
    obtain ⟨made, ended, same⟩ := map_eq_some_iff.mp responded
    cases same
    exact ends.of_eq ended
  cases request with
  | openAt => exact responds (registration_openAt registration) handled
  | dup => exact responds (registration_dup registration) handled
  | sendFd => exact responds (registration_sendFd registration) handled
  | onClose id =>
    cases handled
    refine registration.of_handles rfl (fun other found => (of_erase found).2) ?_
    exact fun pristine => pristine.of_handles fun other handle found => .inl (of_erase found).2
  | query requestId =>
    cases handled
    exact registration.same
  | cancellation id =>
    refine registration_quiet registration stepped
      (show Kind.handles ∉ [Kind.internal].flatMap Kind.expand by decide) ?_
    intro pristine
    simp only [handleScheme, some.injEq] at handled
    have cancelled := pristine.cancel id
    rwa [handled] at cancelled
  | call op =>
    refine registration_quiet registration stepped
      (show Kind.handles ∉ callKinds.flatMap Kind.expand by decide) ?_
    intro pristine
    simp only [handleScheme, map_eq_some_iff] at handled
    rcases handled with ⟨work, called, done⟩
    cases done
    rcases pristine.onCall.of_eq called with ⟨scheme, states⟩
    refine pristine.of_scheme scheme ?_
    intro id state found
    exact pristine.erase _ id state (states ▸ found)

theorem registration_step
    (stepped : manager.step event = some (manager', output)) : manager.Registers manager' := by
  have stepped' := stepped
  cases event with
  | request request kernel => exact registration_request registration stepped
  | wake kernel =>
    refine registration_quiet registration stepped
      (show Kind.handles ∉ wakeKinds.flatMap Kind.expand by decide) ?_
    intro pristine
    obtain ⟨_, id, rest, _, same⟩ := of_step_wake stepped
    have woken := pristine.wake kernel id rest
    rwa [same] at woken
  | threadEvent data status kernel =>
    refine registration_quiet registration stepped
      (show Kind.handles ∉ deathKinds.flatMap Kind.expand by decide) ?_
    intro pristine
    have waiting : Pristine { manager with phase := .draining } :=
      pristine.of_scheme rfl pristine.noPending
    have died := waiting.onThreadEvent kernel data status
    rwa [(of_step_threadEvent stepped).2] at died
  | userStore pid procPage threadPage =>
    refine registration_quiet registration stepped
      (show Kind.handles ∉ [Kind.page].flatMap Kind.expand by decide) ?_
    intro pristine
    cases stepped'
    refine pristine.of_scheme ?_ pristine.noPending
    exact modify_eq_self (pristine.blank.1 pid)
  | appendAwoken | drained | socketEvent | wouldBlock =>
    refine registration_quiet registration stepped
      (show Kind.handles ∉ ([] : List Kind).flatMap Kind.expand by decide) ?_
    intro pristine
    simp only [step] at stepped'
    split at stepped'
    · cases stepped'
      exact pristine.of_scheme rfl pristine.noPending
    · cases stepped'

end

section

variable (reached : procmgr.Reachable manager)

include reached

theorem registration : manager.Registration :=
  reached.invariant registration_start fun _ _ _ _ _ holds _ stepped =>
    (registration_step holds stepped).registration

theorem freely :
    procmgr.ReachableWhile Policy.free.Allows manager := by
  rcases reached with ⟨history, run⟩
  exact ⟨history, run.mono fun before event _ => Policy.free_allows⟩

theorem reachable_edits (allowed : policy.Allows manager event)
    (stepped : procmgr.step manager event = some (manager', output)) :
    ∃ awoken,
      Edits policy (eventKinds event) (manager.scheme, manager.queue event)
        (manager'.scheme, awoken) ∧
      awoken ⊆ manager'.queue event :=
  step_edits (registration reached).blank allowed stepped

end

/-- Only `sendfd` registers init, and only `dup` forks. -/
theorem event_of_kind : (registerInit ∈ eventKinds event →
      ∃ requestId id kernel, event = .request (.sendFd requestId id) kernel) ∧
    (Kind.fork ∈ eventKinds event →
      ∃ requestId fd buf kernel, event = .request (.dup requestId fd buf) kernel) := by
  have neither : ∀ {Registers Forks : Prop} (kinds : List Kind),
      Kind.registerInit ∉ kinds → Kind.fork ∉ kinds →
      (Kind.registerInit ∈ kinds → Registers) ∧ (Kind.fork ∈ kinds → Forks) :=
    fun kinds noRegister noFork => ⟨fun registers => absurd registers noRegister,
      fun forks => absurd forks noFork⟩
  cases event with
  | request request kernel =>
    cases request with
    | sendFd requestId id =>
      refine ⟨fun _ => ⟨requestId, id, kernel, rfl⟩, fun forks => absurd forks ?_⟩
      exact (by decide : Kind.fork ∉ [Kind.registerInit, .handles, .internal])
    | dup requestId fd buf =>
      refine ⟨fun registers => absurd registers ?_, fun _ => ⟨requestId, fd, buf, kernel, rfl⟩⟩
      exact (by decide : Kind.registerInit ∉ [Kind.fork, .newThread, .handles, .internal])
    | call op => exact neither callKinds (by decide) (by decide)
    | openAt | onClose => exact neither [.handles] (by decide) (by decide)
    | cancellation id => exact neither [.internal] (by decide) (by decide)
    | query requestId => exact neither [] (by decide) (by decide)
  | wake kernel => exact neither wakeKinds (by decide) (by decide)
  | threadEvent data status kernel => exact neither deathKinds (by decide) (by decide)
  | userStore pid procPage threadPage => exact neither [.page] (by decide) (by decide)
  | appendAwoken | drained | socketEvent | wouldBlock => exact neither [] (by decide) (by decide)

def laterKinds (event : Event) : List Kind :=
  (eventKinds event).filter fun kind => kind != .registerInit

theorem registerInit_not_later : registerInit ∉ (laterKinds event).flatMap expand := by
  intro member
  obtain ⟨kind, listed, expanded⟩ := List.mem_flatMap.mp member
  have same : kind = .registerInit := by
    revert expanded
    cases kind <;> decide
  simp [laterKinds, same] at listed

theorem dup_of_fork (forks : Kind.fork ∈ (laterKinds event).flatMap Kind.expand) :
    ∃ requestId fd buf kernel, event = .request (.dup requestId fd buf) kernel := by
  obtain ⟨kind, listed, expanded⟩ := List.mem_flatMap.mp forks
  have same : kind = .fork := by
    revert expanded
    cases kind <;> decide
  rw [same] at listed
  exact (event_of_kind).2 (List.mem_filter.mp listed).1

theorem later_edits (registered : ¬ manager.scheme.Unregistered)
    (allowed : policy.Allows manager event)
    (stepped : manager.step event = some (manager', output)) :
    ∃ awoken,
      Edits policy (laterKinds event) (manager.scheme, manager.queue event)
        (manager'.scheme, awoken) ∧
      awoken ⊆ manager'.queue event := by
  have blank : ∀ id, manager.scheme.handles.get? id = some .init → Blank manager.scheme :=
    fun id opened => absurd (.inr ⟨id, opened⟩) registered
  obtain ⟨awoken, edits, queued⟩ := step_edits blank allowed stepped
  by_cases registers : registerInit ∈ eventKinds event
  · -- `sendfd` fails on any other handle.
    obtain ⟨requestId, id, kernel, rfl⟩ := (event_of_kind).1 registers
    obtain ⟨_, ⟨scheme', result⟩, sent, done⟩ :=
      (of_step_request stepped).imp_right map_eq_some_iff.mp
    cases done
    unfold onSendfd at sent
    split at sent
    · cases sent
    next opened => exact absurd (.inr ⟨id, opened⟩) registered
    · cases sent
      exact ⟨_, .refl _, fun _ member => member⟩
  · refine ⟨awoken, edits.mono ?_, queued⟩
    intro kind member
    refine List.mem_filter.mpr ⟨member, ?_⟩
    simpa using fun equality : kind = .registerInit => registers (equality ▸ member)

/-- An invariant of the scheme that every edit preserves holds in every state
reached by steps that the policy allows. -/
theorem edit_invariant (initially : motive start.scheme)
    (preserved : ∀ kind ∈ stepKinds, ∀ before after, Edit policy kind before after →
      motive before.1 → motive after.1)
    (reached : procmgr.ReachableWhile policy.Allows manager) : motive manager.scheme := by
  refine reached.invariant (motive := fun manager => motive manager.scheme) initially ?_
  intro before event after output here holds allowed stepped
  obtain ⟨awoken, edits, -⟩ := reachable_edits here.reachable allowed stepped
  exact (edits.mono eventKinds_subset).preserve
    (motive := fun state => motive state.1) preserved holds

theorem scheme_invariant (initially : motive start.scheme)
    (preserved : ∀ kind ∈ stepKinds.flatMap expand, ∀ before after,
      Edit policy kind before after → kind.Small →
      motive before.1 → motive after.1)
    (reached : procmgr.ReachableWhile policy.Allows manager) : motive manager.scheme := by
  refine edit_invariant initially ?_ reached
  intro kind allowed before after edit
  refine edit.single.preserveSmall (motive := fun state => motive state.1) ?_
  intro part member
  refine preserved part (List.mem_flatMap.mpr ⟨kind, allowed, ?_⟩)
  simpa using member

end Manager

end EosBase.Procmgr
