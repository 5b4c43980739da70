import EosBase.Procmgr.Effects.Signal

/-!
# The edits of waits and exits
-/

namespace EosBase.Procmgr

open Redox ProcScheme Edits

variable {policy : Policy}

namespace ProcScheme

theorem remove_eq_eraseIdx {map : WaitpidMap} {pivot key} :
    ∃ index, map.remove WaitpidKey.cmp pivot key = ⟨map.entries.eraseIdx index⟩ := by
  unfold BTreeMap.remove
  split
  next index _ => exact ⟨index, rfl⟩
  · exact ⟨map.entries.length, by rw [List.eraseIdx_of_length_le le_rfl]⟩

def waitKinds : List Kind := [.consume, .register, .reap]

def reported (flags : WaitFlags) (wPid : ProcessId) (status : WaitpidStatus) :
    Poll (Except Errno (ProcessId × Nat)) :=
  if status.requested flags then .ready (.ok (wPid, status.encode)) else .pending

variable {flags : WaitFlags} {wPid : ProcessId} {scheme : ProcScheme} {status : WaitpidStatus}
  {awoken : List VirtualId} {process : Process} {kernel : Kernel}
  {states : Table VirtualId PendingState}

theorem grimReaper_eq : scheme.grimReaper flags wPid status =
      (if status.isTerminated then scheme.reap wPid else scheme, reported flags wPid status) := by
  unfold grimReaper reported WaitpidStatus.requested WaitpidStatus.isTerminated
  cases status with
  | continued => by_cases asked : flags.wcontinued <;> simp [asked]
  | stopped => by_cases asked : flags.wuntraced <;> simp [asked]
  | terminated => rfl

theorem grimReaper_snd {report}
    (result : (scheme.grimReaper flags wPid status).2 = .ready (.ok report)) :
    report = (wPid, status.encode) := by
  rw [grimReaper_eq, reported] at result
  dsimp only at result
  split at result <;> cases result
  rfl

theorem grimReaper_edits :
    Edits policy waitKinds (scheme, awoken) ((scheme.grimReaper flags wPid status).1, awoken) := by
  rw [grimReaper_eq]
  split
  · exact .single (.reap wPid) (by decide)
  · exact .refl _

theorem onWaitpid_edits {thisPid reqId target} : Edits policy waitKinds (scheme, awoken)
      ((scheme.onWaitpid kernel thisPid target flags reqId).1, awoken) := by
  rcases scheme.onWaitpid_cases kernel thisPid target flags reqId with
    ⟨-, errno, failed⟩ | ⟨process, found, -, received⟩
  · rw [failed]
    exact .refl _
  · rw [received, receive]
    split
    next key wPid status _ =>
      obtain ⟨index, erased⟩ := remove_eq_eraseIdx
      rw [erased, takeStatus, modify_eq_set found]
      exact (set_edits found (.consume index) (by decide)).trans grimReaper_edits
    · unfold awaitStatus
      split
      · exact .refl _
      · exact modify_edits (by decide : Kind.register ∈ _) fun process _ => .register reqId

theorem hangUp_edits (state : Awakening) {pid} :
    Edits policy signalKinds state (hangUp kernel state pid) := by
  unfold hangUp
  split
  · exact .refl _
  split
  · exact (onSendSig_edits _ _ _ _ _ _ _ _ _).trans (onSendSig_edits _ _ _ _ _ _ _ _ _)
  · exact .refl _

theorem releaseGroup_edits (before : ProcScheme) (state : Awakening)
    {grp} : Edits policy signalKinds state (releaseGroup kernel before state grp) := by
  unfold releaseGroup
  split
  · split
    · exact .refl _
    · exact foldl id (hangUp kernel) hangUp_edits _ _
  · exact .refl _

theorem handOver_edits (kernel : Kernel) (currentPid pgid : ProcessId) (state : Awakening) :
    Edits policy (signalKinds ++ [.drain, .reparent]) state
      (handOver kernel currentPid pgid state) := by
  unfold handOver
  split
  · exact .refl _
  next init found =>
  rw [modify_eq_set found]
  have drain : Edits policy (signalKinds ++ [.drain, .reparent]) state _ :=
    process found .drain (by decide)
  refine drain.trans (trans ?_ ((foldl id _ (releaseGroup_edits _) _ _).mono (by decide)))
  exact foldl (fun scheme => (scheme, state.2 ++ init.waitpidWaiting))
    (reparent currentPid) (fun scheme child => .single (.reparent currentPid child) (by decide))
    kernel.order _

def finishKinds : List Kind := signalKinds ++ [.drain, .reparent, .recordExit]

theorem finishExit_edits (kernel : Kernel) (currentPid ppid pgid : ProcessId) (signal : Option Nat)
    (status : Nat) :
    Edits policy finishKinds (scheme, awoken)
      (scheme.finishExit kernel awoken currentPid ppid pgid signal status) := by
  unfold finishExit
  split
  · exact .refl _
  have sent : Edits policy finishKinds (scheme, awoken) _ :=
    (scheme.onSendSig_sigchld_edits kernel currentPid (.proc ppid) false .idempotent false
      awoken).mono (by decide)
  have given := sent.trans ((handOver_edits kernel currentPid pgid _).mono (by decide))
  dsimp only
  split
  · exact given
  next parent found =>
  exact given.trans (.process found (.recordExit currentPid pgid signal status) (by decide))

theorem workOnExit_edits {reqId} {currentPid : ProcessId} {tag : Option Nat}
    (covers : kernel.Covers scheme)
    (allowed : ∀ process, scheme.get? currentPid = some process → process.threads = [] →
      process.status.isExiting = true → policy.complete scheme currentPid) :
    let work := scheme.workOnExit kernel states awoken reqId currentPid tag
    Edits policy [.awaitThreads, .complete] (scheme, awoken) (work.scheme, work.awoken) := by
  intro work
  simp only [work, workOnExit]
  split
  · exact .refl _
  next process found =>
  split
  next threadless =>
    have threadless : process.threads = [] := by simpa using threadless
    split
    next signal status exiting =>
      have permitted := allowed process found threadless (by rw [exiting]; rfl)
      exact .single (.complete kernel covers found exiting threadless permitted) (by decide)
    · exact .refl _
    · exact .refl _
  · exact set_edits found (.awaitThreads reqId) (by decide)

theorem workOnWait_edits {reqId target} {waiter : ProcessId} {op : OpCall} :
    let work := scheme.workOnWait kernel states awoken reqId waiter target flags op
    Edits policy [.wait] (scheme, awoken) (work.scheme, work.awoken) := by
  intro work
  have waited : Edits policy [.wait] (scheme, awoken) _ :=
    .single (.wait kernel waiter target flags reqId) (by decide)
  simp only [work, workOnWait]
  split <;> exact waited

variable {pid : ProcessId} {status : Nat} {first second : ProcScheme.Awakening}

theorem onExitStart_edits (states : Table VirtualId PendingState) (awoken : List VirtualId)
    (reqId : VirtualId) (tag : Option Nat) (covers : kernel.Covers scheme)
    (starts : policy.exit pid status)
    (allowed : ∀ process, scheme.get? pid = some process → process.threads = [] →
      process.status.isTerminating = false → (decodeStatus status).isSome →
      policy.complete scheme pid) :
    let work := scheme.onExitStart kernel states awoken reqId pid status tag
    Edits policy [.startExit, .awaitThreads, .complete] (scheme, awoken)
      (work.scheme, work.awoken) := by
  intro work
  simp only [work, onExitStart]
  split
  · exact .refl _
  next process found =>
  split
  · exact .refl _
  · exact .refl _
  next notExiting notExited =>
  have live := ProcessStatus.isTerminating_eq_false notExiting notExited
  have noExit : process.status.exit? = none := by
    cases statusEq : process.status with
    | exited signal code => exact absurd statusEq (notExited signal code)
    | _ => rfl
  split
  · exact .refl _
  next code signal decoded =>
  have start : Edits policy [.startExit, .awaitThreads, .complete] (scheme, awoken) _ :=
    set_edits found (.startExit decoded live starts) (by decide)
  split
  · exact start
  -- A request is registered at once when there are threads to wait for.
  refine trans ?_ ((workOnExit_edits (covers.set found _) ?_).mono (by decide))
  · split
    · exact start
    · have await := start.trans (set_edits get?_set_self (.awaitThreads reqId) (by decide))
      rwa [set_set] at await
  · intro after afterFound threadless _
    cases (get?_set_self).symm.trans afterFound
    have threadless : process.threads = [] := by
      split at threadless <;> exact threadless
    refine policy.complete_alike (.set found ?_) pid
      (allowed process found threadless live (by rw [decoded]; rfl))
    rw [threadless]
    exact ⟨⟨rfl, rfl, rfl⟩, rfl, noExit.symm⟩

end ProcScheme

def Kind.expand : Kind → List Kind
  | wait => waitKinds
  | complete => .exited :: finishKinds
  | kind => [kind]

variable {kind : Kind}

theorem Kind.mem_expand (small : kind.Small) : kind ∈ kind.expand := by
  revert small
  cases kind <;> decide

theorem Edit.expand {first second} (edit : Edit policy kind first second) :
    Edits policy kind.expand first second := by
  by_cases small : kind.Small
  · exact .single edit (Kind.mem_expand small)
  cases edit with
  | wait kernel pid target flags reqId =>
    exact onWaitpid_edits
  | complete kernel _ found exiting threadless _ =>
    exact (set_edits found (.exited exiting threadless) (by decide)).trans
      ((finishExit_edits ..).mono (by decide))
  | process found edit => exact absurd (by cases edit <;> decide) small
  | _ => exact absurd (by decide) small

theorem Kind.expand_small {part} (member : part ∈ kind.expand) : part.Small := by
  revert member
  cases kind <;> cases part <;> decide

theorem Edits.expand {first second kinds} (edits : Edits policy kinds first second) :
    Edits policy (kinds.flatMap Kind.expand) first second := by
  induction edits with
  | refl => exact .refl _
  | tail _ last earlier =>
    obtain ⟨kind, allowed, edit⟩ := last
    refine earlier.trans (edit.expand.mono ?_)
    intro small member
    exact List.mem_flatMap.mpr ⟨kind, allowed, member⟩

theorem Edits.preserveSmall {first second kinds} {motive : ProcScheme.Awakening → Prop}
    (edits : Edits policy kinds first second)
    (preserved : ∀ kind ∈ kinds.flatMap Kind.expand, ∀ before after,
      Edit policy kind before after → kind.Small →
      motive before → motive after)
    (initially : motive first) : motive second := by
  refine edits.expand.preserve ?_ initially
  intro kind allowed before after edit
  rcases List.mem_flatMap.mp allowed with ⟨large, _, member⟩
  exact preserved kind allowed before after edit (Kind.expand_small member)

end EosBase.Procmgr
