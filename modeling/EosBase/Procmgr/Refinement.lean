import EosBase.Procmgr.Family
import EosBase.Procmgr.WaitMaps

/-!
# The process manager keeps a family tree

Every edit of a step is a step of the family tree that the scheme stands for.
So an invariant of the family tree holds of the process manager.
-/

namespace EosBase.Procmgr

open ProcScheme Family Option Policy Process WaitpidMap Manager

def ProcScheme.family (scheme : ProcScheme) : Family where
  next := scheme.nextId
  parent pid := (scheme.get? pid).map ppid
  exit pid := (scheme.get? pid).bind fun process => process.status.exit?
  holds holder named status := ∃ process, scheme.get? holder = some process ∧
    WaitpidMap.Holds process.waitpid named status

variable {process : Process} {status : WaitpidStatus} {scheme scheme' : ProcScheme}
  {pid : ProcessId} {thread : Thread}

namespace ProcScheme

section

variable (found : scheme.get? pid = some process)

include found

theorem family_parent :
    scheme.family.parent pid = some process.ppid := by
  simp [family, found]

theorem family_exit :
    scheme.family.exit pid = process.status.exit? := by
  simp [family, found]

theorem family_holds {named} :
    scheme.family.holds pid named status ↔ WaitpidMap.Holds process.waitpid named status := by
  simp [family, found]

end

theorem family_present :
    scheme.family.parent pid ≠ none ↔ ∃ process, scheme.get? pid = some process := by
  simp [family, ne_none_iff_exists']

theorem family_parent_found {ppid} (parent : scheme.family.parent pid = some ppid) :
    ∃ process, scheme.get? pid = some process ∧ process.ppid = ppid :=
  map_eq_some_iff.mp parent

theorem orderly_family (fresh : scheme.Fresh) (wellKeyed : scheme.WellKeyed) :
    scheme.family.Orderly := by
  refine ⟨?_, ?_, ?_, ?_, ?_⟩
  · intro pid present
    obtain ⟨process, found⟩ := (family_present).mp present
    exact (fresh.process pid process found).1
  · intro pid ppid parent
    obtain ⟨process, found, rfl⟩ := family_parent_found parent
    exact fresh.parent pid process found
  · rintro holder named first second ⟨process, found, holdsFirst⟩ holdsSecond
    rw [family_holds found] at holdsSecond
    exact (wellKeyed holder process found).unique holdsFirst holdsSecond
  · intro pid exited
    obtain ⟨exit, exitEq⟩ := ne_none_iff_exists'.mp exited
    obtain ⟨process, found, -⟩ := bind_eq_some_iff.mp exitEq
    exact (family_present).mpr ⟨process, found⟩
  · rintro holder named status ⟨process, found, -⟩
    exact (family_present).mpr ⟨process, found⟩

/-- Family trees are compared one process at a time. -/
theorem family_ext {first second : Family} (next : first.next = second.next)
    (at_ : ∀ pid, first.parent pid = second.parent pid ∧ first.exit pid = second.exit pid ∧
      ∀ named status, first.holds pid named status ↔ second.holds pid named status) :
    first = second := by
  refine Family.ext next (funext fun pid => (at_ pid).1) (funext fun pid => (at_ pid).2.1) ?_
  funext pid named status
  exact propext ((at_ pid).2.2 named status)

theorem family_set (found : scheme.get? pid = some process) (after : Process)
    (parent : after.ppid = process.ppid) :
    (scheme.set pid after).family = { scheme.family with
      exit := fun other => if other = pid then after.status.exit? else scheme.family.exit other
      holds := fun holder named status =>
        if holder = pid then WaitpidMap.Holds after.waitpid named status
        else scheme.family.holds holder named status } := by
  refine family_ext rfl fun other => ?_
  by_cases same : other = pid
  · simp [family, same, found, parent]
  · simp [family, same]

theorem family_recorded (wellKeyed : scheme.WellKeyed) (found : scheme.get? pid = some process)
    {childPid pgid} : (scheme.set pid (process.recorded childPid pgid status)).family =
      scheme.family.record pid childPid status := by
  rw [family_set found (process.recorded childPid pgid status) rfl]
  have inserted := ((wellKeyed pid process found).insert childPid pgid status).2
  refine family_ext rfl fun other => ?_
  by_cases same : other = pid
  · refine ⟨rfl, by simp [same, family_exit found, recorded, record], ?_⟩
    intro named status
    by_cases sameChild : named = childPid
    · simp [record, recorded, inserted, same, sameChild]
    · simp [record, recorded, inserted, same, sameChild, family_holds found]
  · simp [record, same]

theorem family_exited (found : scheme.get? pid = some process) (signal : Option Nat)
    (status : Nat) :
    (scheme.set pid { process with status := .exited signal status }).family =
      scheme.family.exited pid (signal, status) := by
  rw [family_set found { process with status := .exited signal status } rfl]
  refine family_ext rfl fun other => ?_
  by_cases same : other = pid
  · simp [exited, same, family_holds found, ProcessStatus.exit?]
  · simp [exited, same]

theorem family_drawn (found : scheme.get? pid = some process) {remaining wPid}
    (remains : ∀ other status, WaitpidMap.Holds remaining other status ↔
      other ≠ wPid ∧ WaitpidMap.Holds process.waitpid other status) :
    (scheme.set pid { process with waitpid := remaining }).family =
      scheme.family.draw pid wPid := by
  rw [family_set found { process with waitpid := remaining } rfl]
  refine family_ext rfl fun other => ?_
  by_cases same : other = pid
  · simp [draw, same, remains, family_exit found, family_holds found]
  · simp [draw, same]

theorem family_reaped (reaped : scheme.Reaped pid process) :
    (scheme.reap pid).family = scheme.family.remove pid := by
  refine family_ext reaped.nextId fun other => ?_
  by_cases same : other = pid <;> simp [family, remove, reaped.get?, same]

theorem family_remove_missing (missing : scheme.get? pid = none) :
    scheme.family.remove pid = scheme.family := by
  refine family_ext rfl fun other => ?_
  by_cases same : other = pid <;> simp [family, remove, same, missing]

theorem family_forked (fresh : scheme.Fresh) {parent} :
    (scheme.forked pid parent thread).family = scheme.family.fork pid := by
  have unused : scheme.get? scheme.nextId = none := by
    cases found : scheme.get? scheme.nextId with
    | none => rfl
    | some process => exact absurd (fresh.process _ process found).1 (lt_irrefl _)
  refine family_ext rfl fun other => ?_
  by_cases same : other = scheme.nextId
  · simpa [family, Family.fork, get?_forked, same, forkedProcess, unused, ProcessStatus.exit?]
      using not_holds_empty
  · simp [family, Family.fork, get?_forked, same]

theorem family_withInit (noProcess : ∀ pid, scheme.get? pid = none) :
    (scheme.withInit thread).family = scheme.family.register := by
  refine family_ext rfl fun other => ?_
  by_cases same : other = initPid
  · simpa [family, register, get?_withInit, same, noProcess, initProcess, ProcessStatus.exit?]
      using not_holds_empty
  · simp [family, register, get?_withInit, same]

theorem family_reparent (wellKeyed : scheme.WellKeyed) {currentPid child}
    (adopted : scheme.Adopted currentPid child process)
    (present : ∃ init, scheme.get? initPid = some init) :
    (reparent currentPid scheme child).family = scheme.family.adopt child := by
  obtain ⟨init, initFound⟩ := present
  have notInit : initPid ≠ child := adopted.notInit.symm
  have appended := ((wellKeyed initPid init initFound).append
    (wellKeyed child process adopted.found)).2
  refine family_ext (groups_reparent scheme).2 fun other => ?_
  by_cases isInit : other = initPid
  · subst isInit
    simp [family, adopt, adopted.get?, notInit, initFound, adopted.found, appended]
  by_cases isChild : other = child
  · simpa [family, adopt, adopted.get?, adopted.notInit, isChild, adopted.found]
      using not_holds_empty
  · simp [family, adopt, adopted.get?, isInit, isChild]

end ProcScheme

structure Process.Steady (before after : Process) : Prop where
  ppid : after.ppid = before.ppid
  waitpid : after.waitpid = before.waitpid
  exit? : after.status.exit? = before.status.exit?

theorem ProcessStatus.exit?_eq_none {status : ProcessStatus}
    (live : status.isTerminating = false) : status.exit? = none := by
  cases status with
  | exited signal code => cases live
  | _ => rfl

variable {after before : Process} {policy : Policy} {kind : Kind}
  {first second : ProcScheme.Awakening} {scheme scheme' : ProcScheme}

theorem ProcessStatus.exit?_eq_some {signal} {status : ProcessStatus} {code}
    (exited : status.exit? = some (signal, code)) : status = .exited signal code := by
  cases status with
  | exited => simpa [exit?] using exited
  | _ => cases exited

theorem Process.Touched.steady (touched : before.Touched after) : before.Steady after := by
  refine ⟨touched.kin.ppid, touched.waitpid, ?_⟩
  rcases touched.status with same | ⟨liveBefore, liveAfter⟩
  · rw [same]
  · rw [ProcessStatus.exit?_eq_none liveBefore, ProcessStatus.exit?_eq_none liveAfter]

namespace ProcScheme

theorem family_steady {pid} (found : scheme.get? pid = some process)
    (steady : process.Steady after) : (scheme.set pid after).family = scheme.family := by
  rw [family_set found after steady.ppid]
  refine family_ext rfl fun other => ?_
  by_cases same : other = pid
  · simp [same, family_exit found, family_holds found, steady.exit?, steady.waitpid]
  · simp [same]

theorem family_regrouped {pid oldPgid newPgid} :
    (scheme.regrouped pid oldPgid newPgid).family = scheme.family := by
  refine family_ext rfl fun other => ?_
  by_cases same : other = pid
  · simp [family, get?_regrouped, same, Function.comp_def, bind_map]
  · simp [family, get?_regrouped, same]

end ProcScheme

def steadyKinds : List Kind :=
  [.page, .touch, .creds, .drain, .register, .newThread, .startExit, .awaitThreads,
    .threadDeath, .regroup, .setSid, .handles, .internal]

theorem ProcEdit.steady {added scheme pid}
    (edit : ProcEdit policy scheme pid kind before after added)
    (inside : kind ∈ steadyKinds) : before.Steady after := by
  cases edit with
  | page touched | touch touched => exact touched.steady
  | creds derived => exact ⟨derived.kin.ppid, derived.waitpid, by rw [derived.status]⟩
  | startExit _ live _ =>
    exact ⟨rfl, rfl, (ProcessStatus.exit?_eq_none live).symm⟩
  | drain | register | newThread | awaitThreads | threadDeath | threadDeathExiting =>
    exact ⟨rfl, rfl, rfl⟩
  | record | recordExit | consume | exited => exact absurd inside (by decide)

theorem Edit.steady (edit : Edit policy kind first second) (inside : kind ∈ steadyKinds) :
    second.1.family = first.1.family.grow second.1.nextId ∧
      first.1.nextId ≤ second.1.nextId := by
  cases edit with
  | process found edit =>
    exact ⟨family_steady found (edit.steady inside), le_rfl⟩
  | setSid found _ _ => exact ⟨family_steady found ⟨rfl, rfl, rfl⟩, le_rfl⟩
  | regroup => exact ⟨family_regrouped, le_rfl⟩
  | handles => exact ⟨rfl, le_rfl⟩
  | internal processes _ _ _ nextId _ =>
    refine ⟨?_, nextId⟩
    simp only [family, grow, get?, processes]
  | reap | fork | registerInit | reparent | wait | complete => exact absurd inside (by decide)

theorem Edit.quiet (edit : Edit policy kind first second) (inside : kind ∈ .record :: steadyKinds)
    (wellKeyed : first.1.WellKeyed) : first.1.family.Quiet second.1.family := by
  by_cases isRecord : kind = .record
  · subst isRecord
    cases edit with
    | process found edit =>
      cases edit with
      | @record _ child childPid status childFound isChild live reported =>
        rw [family_recorded wellKeyed found]
        refine .record ?_ ((family_present).mpr ⟨_, found⟩) ?_ reported
        · rw [family_parent childFound, isChild]
        · rw [family_exit childFound, ProcessStatus.exit?_eq_none live]
  · obtain ⟨same, larger⟩ := edit.steady ((List.mem_cons.mp inside).resolve_left isRecord)
    rw [same]
    exact .grow larger

def ProcScheme.Idle (scheme : ProcScheme) : Prop :=
  ∀ pid process, scheme.get? pid = some process → process.status.exit? ≠ none →
    process.threads = []

theorem ProcScheme.Takes.draws {scheme : ProcScheme} {thisPid wPid target}
    (found : scheme.get? thisPid = some process)
    (takes : scheme.Takes thisPid target process wPid status) :
    scheme.family.Draws thisPid wPid status := by
  cases takes with
  | entry holds _ => exact .entry ((family_holds found).mpr holds)
  | @child targetProc signal code targetFound parent other exited report =>
    refine @Family.Draws.child _ _ _ _ (signal, code) ?_ other ?_ report
    · rw [family_parent targetFound, parent]
    · rw [family_exit targetFound, exited]
      rfl

variable {rules : Family.Rules} {kernel : Kernel} {kinds : List Kind} {manager : Manager}
  {pid : ProcessId}

theorem ProcScheme.reap_step {scheme drawn : ProcScheme} {thisPid wPid} {exit : Exit}
    (idle : ¬ rules.late → drawn.Idle) (present : scheme.family.parent thisPid ≠ none)
    (draws : scheme.family.Draws thisPid wPid exit.report)
    (taken : drawn.family = scheme.family.draw thisPid wPid) :
    Family.Step rules scheme.family (drawn.reap wPid).family := by
  cases target : drawn.get? wPid with
  | none =>
    rw [reap_eq_self (by simp [target]), ← family_remove_missing target, taken]
    exact .reaped present draws
  | some process =>
    by_cases threadless : process.threads = []
    · rw [family_reaped (reaped target threadless), taken]
      exact .reaped present draws
    rw [reap_eq_self (by simpa [target] using threadless), taken]
    refine .kept present draws ?_
    by_cases late : rules.late
    · exact .inr late
    · refine .inl (Classical.byContradiction fun exited => threadless ?_)
      refine idle late wPid process target ?_
      rwa [← family_exit target, taken]

theorem ProcScheme.onWaitpid_step {scheme : ProcScheme} (wellKeyed : scheme.WellKeyed)
    (idle : ¬ rules.late → scheme.Idle) {thisPid target flags reqId} :
    Family.Step rules scheme.family
      (scheme.onWaitpid kernel thisPid target flags reqId).1.family := by
  have same : Family.Step rules scheme.family scheme.family := .quiet (.grow le_rfl)
  have outcome := onWaitpid_outcome wellKeyed kernel thisPid target flags reqId
  generalize scheme.onWaitpid kernel thisPid target flags reqId = waited at outcome
  cases outcome with
  | failed => exact same
  | nothing => exact same
  | @registered process found =>
    have steady : (scheme.set thisPid { process with
        waitpidWaiting := process.waitpidWaiting ++ [reqId] }).family = scheme.family :=
      family_steady found ⟨rfl, rfl, rfl⟩
    rw [steady]
    exact same
  | @taken process remaining wPid status found takes remains =>
    have draws := takes.draws found
    have present : scheme.family.parent thisPid ≠ none :=
      (family_present).mpr ⟨process, found⟩
    have drawn := family_drawn found remains
    have drawnIdle : ¬ rules.late →
        (scheme.set thisPid { process with waitpid := remaining }).Idle := by
      intro notLate other after afterFound exited
      rcases set_found afterFound with ⟨rfl, rfl⟩ | ⟨-, otherFound⟩
      · exact idle notLate other process found exited
      · exact idle notLate other after otherFound exited
    rw [grimReaper_eq]
    cases status with
    | continued | stopped => exact drawn ▸ .drawn present draws rfl
    | terminated signal code =>
      exact @reap_step rules scheme _ thisPid wPid (signal, code) drawnIdle present draws drawn

section

variable (edits : Edits policy kinds first second)

include edits

theorem Edits.keepsPids (inside : kinds ⊆ finishKinds) (pid : ProcessId) :
    (second.1.get? pid).isSome = (first.1.get? pid).isSome := by
  refine edits.preserve (motive := fun state =>
    (state.1.get? pid).isSome = (first.1.get? pid).isSome) ?_ rfl
  intro kind allowed before after edit same
  rw [← same]
  cases edit with
  | process found edit =>
    rw [get?_set]
    split
    next equality =>
      subst equality
      rw [found]
      rfl
    · rfl
  | reparent current child =>
    rcases reparent_cases with ⟨-, same⟩ | ⟨process, adopted⟩
    · rw [same]
    rw [adopted.get?]
    split
    next equality =>
      subst equality
      rw [isSome_map]
    split
    next equality =>
      subst equality
      rw [adopted.found]
      rfl
    · rfl
  | _ => exact absurd (inside allowed) (by decide)

theorem Edits.wellKeyed (wellKeyed : first.1.WellKeyed) : second.1.WellKeyed := by
  refine edits.preserveSmall (motive := fun state => state.1.WellKeyed) ?_ wellKeyed
  intro kind _ before after edit small
  exact edit.wellKeyed small

theorem Edits.quiet (inside : kinds ⊆ .record :: steadyKinds) (wellKeyed : first.1.WellKeyed) :
    Relation.ReflTransGen Family.Quiet first.1.family second.1.family := by
  refine (edits.preserve (motive := fun state => state.1.WellKeyed ∧
    Relation.ReflTransGen Family.Quiet first.1.family state.1.family) ?_ ⟨wellKeyed, .refl⟩).2
  rintro kind allowed before after edit ⟨wellKeyed, earlier⟩
  exact ⟨edit.single.wellKeyed wellKeyed, earlier.tail (edit.quiet (inside allowed) wellKeyed)⟩

theorem Edits.steady (inside : kinds ⊆ steadyKinds) :
    second.1.family = first.1.family.grow second.1.nextId ∧
      first.1.nextId ≤ second.1.nextId := by
  refine edits.preserve (motive := fun state =>
    state.1.family = first.1.family.grow state.1.nextId ∧ first.1.nextId ≤ state.1.nextId) ?_
    ⟨rfl, le_rfl⟩
  rintro kind allowed before after edit ⟨same, larger⟩
  obtain ⟨sameAgain, largerAgain⟩ := edit.steady (inside allowed)
  refine ⟨?_, larger.trans largerAgain⟩
  rw [sameAgain, same]
  rfl

end

namespace ProcScheme

theorem foldl_reparent (order : List ProcessId) (scheme : ProcScheme)
    (wellKeyed : scheme.WellKeyed) (present : (scheme.get? initPid).isSome = true) :
    Relation.ReflTransGen (Family.Hand pid) scheme.family
        (order.foldl (reparent pid) scheme).family ∧
      (pid ≠ initPid → ∀ child, child ≠ initPid →
        (order.foldl (reparent pid) scheme).family.parent child = some pid →
        scheme.family.parent child = some pid ∧ child ∉ order) := by
  induction order generalizing scheme with
  | nil => exact ⟨.refl, fun _ child _ isChild => ⟨isChild, List.not_mem_nil⟩⟩
  | cons next order ih =>
    have single : Edits free [.reparent] (scheme, []) (reparent pid scheme next, []) :=
      Edit.single (.reparent pid next)
    obtain ⟨later, remaining⟩ := ih (reparent pid scheme next)
      (single.wellKeyed wellKeyed) ((single.keepsPids (by decide) initPid).trans present)
    have presentInit := isSome_iff_exists.mp present
    rcases reparent_cases with ⟨noChild, same⟩ | ⟨process, adopted⟩
    · rw [same] at later remaining
      rw [List.foldl_cons, same]
      refine ⟨later, fun notInit child childNotInit isChild => ?_⟩
      obtain ⟨wasChild, unvisited⟩ := remaining notInit child childNotInit isChild
      refine ⟨wasChild, List.not_mem_cons_of_ne_of_not_mem ?_ unvisited⟩
      rintro rfl
      obtain ⟨process, found, parent⟩ := family_parent_found wasChild
      exact noChild process found childNotInit parent
    · have handed := family_reparent wellKeyed adopted presentInit
      rw [handed] at later remaining
      refine ⟨.head ?_ later, fun notInit child childNotInit isChild => ?_⟩
      · refine .adopt adopted.notInit ?_ ((family_present).mpr presentInit)
        rw [family_parent adopted.found, adopted.parent]
      · obtain ⟨wasChild, unvisited⟩ := remaining notInit child childNotInit isChild
        by_cases visited : child = next
        · subst visited
          simp only [adopt, if_true, some.injEq] at wasChild
          exact absurd wasChild.symm notInit
        · simp only [adopt, visited, if_false] at wasChild
          exact ⟨wasChild, List.not_mem_cons_of_ne_of_not_mem visited unvisited⟩

theorem handOver_family {pgid state} (covers : kernel.Covers state.1)
    (wellKeyed : state.1.WellKeyed) :
    ∃ given, Relation.ReflTransGen (Family.Hand pid) state.1.family given ∧
      (given.parent initPid = none ∨ pid = initPid ∨ given.Childless pid) ∧
      Relation.ReflTransGen Family.Quiet given (handOver kernel pid pgid state).1.family := by
  unfold handOver
  split
  next missing => exact ⟨_, .refl, .inl (by simp [family, missing]), .refl⟩
  next init found =>
  rw [modify_eq_set found]
  -- The waiters of init wake up first.
  generalize drainedEq : state.1.set initPid { init with waitpidWaiting := [] } = drained
  have same : drained.family = state.1.family :=
    drainedEq ▸ family_steady found ⟨rfl, rfl, rfl⟩
  have coversDrained : kernel.Covers drained := drainedEq ▸ covers.set found _
  have keyedDrained : drained.WellKeyed := by
    have drain : Edits free [.drain] state _ := .process found .drain (by decide)
    exact drainedEq ▸ drain.wellKeyed wellKeyed
  have present : (drained.get? initPid).isSome = true := by
    rw [← drainedEq, get?_set_self]
    rfl
  obtain ⟨handed, unvisited⟩ := @foldl_reparent pid kernel.order drained keyedDrained present
  refine ⟨_, same ▸ handed, .inr ?_, ?_⟩
  · by_cases isInit : pid = initPid
    · exact .inl isInit
    refine .inr fun child notInit isChild => ?_
    obtain ⟨wasChild, missed⟩ := unvisited isInit child notInit isChild
    obtain ⟨process, childFound, -⟩ := family_parent_found wasChild
    exact missed (coversDrained child process childFound)
  · have given : Edits free [.reparent] (drained, state.2 ++ init.waitpidWaiting) _ :=
      Edits.foldl (fun scheme => (scheme, state.2 ++ init.waitpidWaiting)) (reparent pid)
        (fun scheme child => .single (.reparent pid child) (by decide)) kernel.order drained
    have released : Edits free signalKinds _ _ := Edits.foldl id
      (releaseGroup kernel drained) (releaseGroup_edits drained)
      (kernel.groupOrder.filter fun grp => (drained.affectedPgids kernel pid pgid).contains grp)
      (kernel.order.foldl (reparent pid) drained, state.2 ++ init.waitpidWaiting)
    exact released.quiet (by decide) (given.wellKeyed keyedDrained)

theorem finishExit_completes {signal scheme awoken}
    (covers : kernel.Covers scheme) (wellKeyed : scheme.WellKeyed)
    (found : scheme.get? pid = some process) {status} : scheme.family.Completes pid (signal, status)
      ((scheme.set pid { process with status := .exited signal status }).finishExit kernel awoken
        pid process.ppid process.pgid signal status).1.family := by
  have parent := family_parent found
  have exited := family_exited found signal status
  have coversExited := covers.set found { process with status := .exited signal status }
  have keyedExited :
      (scheme.set pid { process with status := .exited signal status }).WellKeyed := by
    intro other after afterFound
    rcases set_found afterFound with ⟨rfl, rfl⟩ | ⟨-, otherFound⟩
    · exact wellKeyed other process found
    · exact wellKeyed other after otherFound
  generalize scheme.set pid { process with status := .exited signal status } = start at *
  unfold finishExit
  split
  next missing =>
    rw [exited]
    refine .alone parent ?_
    have same : (scheme.family.exited pid (signal, status)).parent process.ppid = none := by
      rw [← exited]
      simp [family, missing]
    exact same
  next ppidProcess ppidFound =>
  have present : scheme.family.parent process.ppid ≠ none := by
    have same : start.family.parent process.ppid ≠ none :=
      (family_present).mpr ⟨ppidProcess, ppidFound⟩
    rwa [exited] at same
  have sent : Edits free [.page] (start, awoken) _ :=
    start.onSendSig_sigchld_edits kernel pid (.proc process.ppid) false .idempotent false awoken
  dsimp only
  generalize start.onSendSig kernel pid (.proc process.ppid) sigchld false .idempotent false
    awoken = sentTo at sent
  have sentPids := sent.keepsPids (by decide)
  have coversSent : kernel.Covers sentTo.scheme := by
    intro other member otherFound
    have same := sentPids other
    rw [otherFound] at same
    obtain ⟨old, oldFound⟩ := isSome_iff_exists.mp same.symm
    exact coversExited other old oldFound
  obtain ⟨told, larger⟩ := sent.steady (by decide)
  have keyedSent : sentTo.scheme.WellKeyed := sent.wellKeyed keyedExited
  obtain ⟨given, handed, all, released⟩ := @handOver_family kernel pid process.pgid
    (sentTo.scheme, sentTo.awoken) coversSent keyedSent
  have handEdits : Edits free _ _ _ :=
    handOver_edits kernel pid process.pgid (sentTo.scheme, sentTo.awoken)
  generalize handOver kernel pid process.pgid (sentTo.scheme, sentTo.awoken) = state at *
  -- The parent is still there, so the exit is recorded.
  have stays := (handEdits.keepsPids (by decide) process.ppid).trans (sentPids process.ppid)
  rw [ppidFound] at stays
  split
  next missing =>
    rw [missing] at stays
    cases stays
  next last lastFound =>
  have result : (state.1.recordStatus state.2 process.ppid last pid process.pgid
      (.terminated signal status)).1.family = _ :=
    family_recorded (handEdits.wellKeyed keyedSent) lastFound
  rw [result]
  refine .recorded parent present ?_ all released
  rw [← exited]
  refine .head (.grow larger) ?_
  rw [← told]
  exact handed

end ProcScheme

structure Family.Rules.Follow (rules : Family.Rules) (policy : Policy) : Prop where
  fork : ∀ (scheme : ProcScheme) pid process, scheme.get? pid = some process →
    policy.fork pid process → rules.fork scheme.family pid
  complete : ∀ scheme pid, policy.complete scheme pid → rules.complete scheme.family pid
  late : ¬ rules.late → ∀ process, policy.newThread process → process.status.exit? = none

theorem Edit.step (edit : Edit policy kind first second) (inside : kind ∈ stepKinds)
    (follow : rules.Follow policy) (fresh : first.1.Fresh) (wellKeyed : first.1.WellKeyed)
    (idle : ¬ rules.late → first.1.Idle) :
    Family.Step rules first.1.family second.1.family := by
  by_cases isQuiet : kind ∈ .record :: steadyKinds
  · exact .quiet (edit.quiet isQuiet wellKeyed)
  cases edit with
  | @fork scheme _ parentPid parent found allowed thread =>
    rw [family_forked fresh]
    exact .fork ((family_present).mpr ⟨parent, found⟩)
      (follow.fork scheme parentPid parent found allowed)
  | registerInit thread noProcess _ =>
    rw [family_withInit noProcess]
    exact .register fun pid => by simp [family, noProcess]
  | wait kernel pid target flags reqId =>
    exact onWaitpid_step wellKeyed idle
  | @complete scheme awoken pid process signal status kernel covers found exiting _ allowed =>
    refine .completes ?_ (follow.complete scheme pid allowed)
      (finishExit_completes covers wellKeyed found)
    rw [family_exit found, exiting]
    rfl
  | process found edit =>
    cases edit with
    | recordExit | consume | exited => exact absurd inside (by decide)
    | _ => exact absurd (by decide) isQuiet
  | reap | reparent => exact absurd inside (by decide)
  | regroup | setSid | handles | internal => exact absurd (by decide) isQuiet

theorem Evolves.idle {added scheme pid}
    (evolves : Evolves policy kind scheme pid before after added)
    (timely : ∀ process, policy.newThread process → process.status.exit? = none)
    (idle : before.status.exit? ≠ none → before.threads = [])
    (exited : after.status.exit? ≠ none) : after.threads = [] := by
  have touched : before.Touched after → after.threads = [] := by
    intro touched
    rw [touched.steady.exit?] at exited
    have threadless := touched.isEmpty_threads
    rw [idle exited] at threadless
    simpa using threadless
  cases evolves with
  | same | regrouped | session | adopted | adopts => exact idle exited
  | edit edit =>
    cases edit with
    | page changed | touch changed => exact touched changed
    | creds derived =>
      rw [derived.status] at exited
      rw [derived.threads]
      exact idle exited
    | newThread thread allowed => exact absurd (timely before allowed) exited
    | startExit => exact absurd rfl exited
    | exited _ threadless => exact threadless
    | threadDeath | threadDeathExiting => simp [dropThread, idle exited]
    | _ => exact idle exited

theorem Edit.idle (edit : Edit policy kind first second) (small : kind.Small)
    (timely : ∀ process, policy.newThread process → process.status.exit? = none)
    (idle : first.1.Idle) : second.1.Idle := by
  refine edit.forallProcess (motive := fun _ process => process.status.exit? ≠ none →
    process.threads = []) small ?_ ?_ ?_ idle
  · exact fun thread exited => absurd rfl exited
  · exact fun parent parentPid childPid thread exited => absurd rfl exited
  · intro pid before after added evolves idle exited
    exact evolves.idle timely idle exited

theorem Manager.family_invariant {motive : Family → Prop} (follow : rules.Follow policy)
    (initially : motive start.scheme.family)
    (preserved : ∀ before after, before.Orderly → Family.Step rules before after →
      motive before → motive after)
    (reached : procmgr.ReachableWhile policy.Allows manager) :
    motive manager.scheme.family ∧ (¬ rules.late → manager.scheme.Idle) := by
  have holds := edit_invariant (motive := fun scheme => (scheme.Fresh ∧ scheme.WellKeyed) ∧
    motive scheme.family ∧ (¬ rules.late → scheme.Idle)) ⟨⟨fresh_start, wellKeyed_start⟩,
      initially, ?_⟩ ?_ reached
  · exact holds.2
  · intro _ pid process found
    cases (Table.get?_empty).symm.trans found
  rintro kind allowed before after edit ⟨⟨fresh, wellKeyed⟩, holds, idle⟩
  refine ⟨⟨?_, edit.single.wellKeyed wellKeyed⟩, preserved _ _
    (orderly_family fresh wellKeyed) (edit.step allowed follow fresh wellKeyed idle)
    holds, ?_⟩
  · refine edit.single.preserveSmall (motive := fun state => state.1.Fresh) ?_ fresh
    intro part _ first second edit small
    exact edit.fresh small
  · intro notLate
    refine edit.single.preserveSmall (motive := fun state => state.1.Idle) ?_ (idle notLate)
    intro part _ first second edit small
    exact edit.idle small (follow.late notLate)

theorem Manager.orderly (reached : procmgr.Reachable manager) : manager.scheme.family.Orderly :=
  orderly_family (fresh reached) (wellKeyed reached)

end EosBase.Procmgr
