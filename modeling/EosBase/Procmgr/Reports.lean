import EosBase.Procmgr.Refinement
import EosBase.Procmgr.Scenario

/-!
# Reports of exits

A process that exited stays until its parent waits for it, and until then the
parent holds the report.  Two things break this.  `new_thread` adds a thread to
a process that exited, which `reap` then refuses to remove after its report was
taken.  And the children that an exiting process hands over to init leave their
reports behind, while those of the grandchildren move.
-/

namespace EosBase.Procmgr

open Option ProcScheme Scenario Family

variable {child : ProcessId} {exit : Exit} {family family' : Family} {pid : ProcessId}

namespace Family

/-- The reports of exits that are held are those of the children that exited,
up to one whose exit is not complete. -/
structure Reported (exempt : Option ProcessId) (family : Family) : Prop where
  sound : ∀ holder named exit, family.holds holder named (Exit.report exit) →
    family.parent named = some holder ∧ family.exit named = some exit
  complete : ∀ holder named exit, exempt ≠ some named → family.exit named = some exit →
    family.parent named = some holder → family.parent holder ≠ none →
    family.holds holder named (Exit.report exit)

/-- An exit finds no children that exited, unless it is that of init, and its
children hold nothing about processes that exited. -/
structure Settled (family : Family) (pid : ProcessId) : Prop where
  children : pid = initPid ∨ ∀ child, child ≠ initPid → family.parent child = some pid →
    family.exit child = none
  maps : ∀ child, child ≠ initPid → family.parent child = some pid →
    ∀ named status, family.holds child named status → named ≠ pid → family.exit named = none

def reportRules : Rules where
  fork _ _ := True
  complete family pid := ∀ ppid, family.parent pid = some ppid → family.parent ppid ≠ none →
    family.parent initPid ≠ none → family.Settled pid
  late := False

theorem Reported.quiet {exempt} (reported : Reported exempt family) (quiet : family.Quiet family') :
    Reported exempt family' := by
  cases quiet with
  | grow => exact ⟨reported.sound, reported.complete⟩
  | @record waiter child status _ _ live notReport =>
    constructor
    · intro holder named exit holds
      simp only [record] at holds
      split at holds
      · rw [← holds] at notReport
        cases notReport
      · exact reported.sound holder named exit holds
    · intro holder named exit notExempt exited parent present
      have held := reported.complete holder named exit notExempt exited parent present
      have other : ¬ (holder = waiter ∧ named = child) := by
        rintro ⟨-, rfl⟩
        cases live.symm.trans exited
      simpa only [record, other, if_false] using held

theorem Reported.adopt (reported : Reported (some pid) family) (settled : family.Settled pid)
    (older : ∀ pid ppid, family.parent pid = some ppid →
      (pid = initPid ∧ ppid = initPid) ∨ (initPid < pid ∧ initPid ≤ ppid ∧ ppid < pid))
    (notInit : child ≠ initPid) (isChild : family.parent child = some pid) :
    Reported (some pid) (family.adopt child) := by
  -- The exiting process is not a child of its child.
  have notParent : family.parent pid ≠ some child := by
    intro parent
    rcases older child pid isChild with ⟨isInit, -⟩ | ⟨-, -, below⟩
    · exact notInit isInit
    · rcases older pid child parent with ⟨-, isInit⟩ | ⟨-, -, above⟩
      · exact notInit isInit
      · exact lt_asymm below above
  constructor
  · intro holder named exit holds
    simp only [Family.adopt] at holds ⊢
    split at holds
    next isInit =>
      rcases holds with moved | ⟨-, kept⟩
      · obtain ⟨parent, exited⟩ := reported.sound child named exit moved
        have other : named ≠ pid := fun same => notParent (same ▸ parent)
        cases (settled.maps child notInit isChild named _ moved other).symm.trans exited
      obtain ⟨parent, exited⟩ := reported.sound initPid named exit kept
      refine ⟨?_, exited⟩
      rw [isInit, parent]
      exact ite_self _
    next holderNotInit =>
    obtain ⟨parent, exited⟩ := reported.sound holder named exit holds.2
    refine ⟨?_, exited⟩
    split
    next same =>
      rw [same, isChild, some.injEq] at parent
      rcases settled.children with isInit | live
      · exact absurd (parent.symm.trans isInit) holderNotInit
      · cases (live child notInit isChild).symm.trans (same ▸ exited)
    · exact parent
  · intro holder named exit notExempt exited parent present
    have other : named ≠ pid := fun same => notExempt (by rw [same])
    -- Nothing that the child holds is about a process that exited.
    have unheld : ∀ status, ¬ family.holds child named status := by
      intro status held
      cases (settled.maps child notInit isChild named status held other).symm.trans exited
    have presentBefore : family.parent holder ≠ none := by
      by_cases same : holder = child
      · simp [same, isChild]
      · simpa [Family.adopt, same] using present
    have parentBefore : family.parent named = some holder := by
      by_cases same : named = child
      · simp only [Family.adopt, same, if_true, some.injEq] at parent
        rcases settled.children with isInit | live
        · rw [same, isChild, isInit, parent]
        · cases (live child notInit isChild).symm.trans (same ▸ exited)
      · simpa only [Family.adopt, same, if_false] using parent
    have held := reported.complete holder named exit notExempt exited parentBefore presentBefore
    simp only [Family.adopt]
    split
    next isInit => exact .inr ⟨unheld, isInit ▸ held⟩
    · refine ⟨?_, held⟩
      rintro rfl
      exact unheld _ held

theorem Settled.adopt (settled : family.Settled pid) (child : ProcessId) :
    (family.adopt child).Settled pid := by
  constructor
  · by_cases isInit : pid = initPid
    · exact .inl isInit
    refine .inr fun other otherNotInit parent => ?_
    by_cases same : other = child
    · simp only [Family.adopt, same, if_true, some.injEq] at parent
      exact absurd parent.symm isInit
    · simp only [Family.adopt, same, if_false] at parent
      exact (settled.children.resolve_left isInit) other otherNotInit parent
  · intro other otherNotInit parent named status holds notPid
    simp only [Family.adopt, otherNotInit, if_false] at holds
    simp only [Family.adopt, holds.1, if_false] at parent
    exact settled.maps other otherNotInit parent named status holds.2 notPid

theorem Reported.exited (reported : Reported none family) (exit : Exit)
    (live : family.exit pid = none) : Reported (some pid) (family.exited pid exit) := by
  constructor
  · intro holder named other holds
    obtain ⟨parent, exited⟩ := reported.sound holder named other holds
    refine ⟨parent, ?_⟩
    have different : named ≠ pid := by
      rintro rfl
      cases live.symm.trans exited
    simpa only [Family.exited, different, if_false] using exited
  · intro holder named other notExempt exited
    have different : named ≠ pid := fun same => notExempt (by rw [same])
    simp only [Family.exited, different, if_false] at exited
    exact reported.complete holder named other (by simp) exited

theorem Reported.record {ppid} (reported : Reported (some pid) family)
    (settling : Settling pid ppid exit family) :
    Reported none (family.record ppid pid exit.report) := by
  constructor
  · intro holder named other holds
    simp only [Family.record] at holds
    split at holds
    next same =>
      rw [same.1, same.2, Exit.report_injective holds]
      exact ⟨settling.parent, settling.exited⟩
    · exact reported.sound holder named other holds
  · intro holder named other _ exited parent present
    simp only [Family.record]
    split
    next same =>
      rw [same.2] at exited
      exact congrArg Exit.report (some.inj (exited.symm.trans settling.exited))
    next different =>
    refine reported.complete holder named other ?_ exited parent present
    rintro ⟨⟩
    exact different ⟨some.inj (parent.symm.trans settling.parent), rfl⟩

theorem Reported.completes (reported : Reported none family) (orderly : family.Orderly)
    (live : family.exit pid = none) (allowed : reportRules.complete family pid)
    (completes : family.Completes pid exit family') : Reported none family' := by
  refine completes.rule orderly (fun open' => Reported (some pid) open' ∧
    (open'.parent initPid ≠ none → open'.Settled pid)) (Reported (some pid)) ?_ ?_ ?_ ?_ ?_ ?_
  · intro ppid settling missing
    obtain ⟨sound, complete⟩ := reported.exited exit live
    refine ⟨sound, ?_⟩
    intro holder named other _ exited parent present
    refine complete holder named other ?_ exited parent present
    rintro ⟨⟩
    rw [settling.parent, some.injEq] at parent
    exact absurd (parent ▸ missing) present
  · intro ppid parent present
    refine ⟨reported.exited exit live, fun initPresent => ?_⟩
    obtain ⟨children, maps⟩ := allowed ppid parent present initPresent
    have settling : Settling pid ppid exit (family.exited pid exit) := .start orderly parent
    refine ⟨children.imp_right fun live child notInit isChild => ?_, ?_⟩
    · have different := settling.ne_child notInit isChild
      simpa only [Family.exited, different, if_false] using live child notInit isChild
    · intro child notInit isChild named status holds different
      simpa only [Family.exited, different, if_false] using
        maps child notInit isChild named status holds different
  · rintro ppid before after settling hand ⟨reported, settled⟩
    cases hand with
    | grow =>
      refine ⟨⟨reported.sound, reported.complete⟩, fun present => ?_⟩
      exact ⟨(settled present).children, (settled present).maps⟩
    | adopt notInit isChild present =>
      exact ⟨reported.adopt (settled present) settling.older notInit isChild,
        fun _ => (settled present).adopt _⟩
  · intro ppid given _ isOpen _
    exact isOpen.1
  · intro ppid before after _ quiet reported
    exact reported.quiet quiet
  · intro ppid released settling reported
    exact reported.record settling

theorem Reported.reaped {waiter} (reported : Reported none family)
    (draws : family.Draws waiter child exit.report) :
    Reported none ((family.draw waiter child).remove child) := by
  have isChild : family.parent child = some waiter := by
    cases draws with
    | entry holds => exact (reported.sound waiter child exit holds).1
    | child isChild => exact isChild
  constructor
  · rintro holder named other ⟨-, notDrawn, held⟩
    obtain ⟨parent, exited⟩ := reported.sound holder named other held
    have different : named ≠ child := by
      rintro rfl
      rw [isChild, some.injEq] at parent
      exact notDrawn ⟨parent.symm, rfl⟩
    simp only [remove, draw, different, if_false]
    exact ⟨parent, exited⟩
  · intro holder named other _ exited parent present
    have different : named ≠ child := by
      rintro rfl
      simp [remove] at exited
    have holderStays : holder ≠ child := by
      rintro rfl
      simp [remove] at present
    simp only [remove, draw, different, holderStays, if_false] at exited parent present
    exact ⟨holderStays, fun both => different both.2,
      reported.complete holder named other (by simp) exited parent present⟩

theorem Reported.drawn {waiter} (reported : Reported none family) (orderly : family.Orderly)
    {status} (draws : family.Draws waiter child status)
    (unreported : status.isTerminated = false ∨ family.exit child = none) :
    Reported none (family.draw waiter child) := by
  refine ⟨fun holder named exit holds => reported.sound holder named exit holds.2, ?_⟩
  intro holder named exit notExempt exited parent present
  have held := reported.complete holder named exit notExempt exited parent present
  refine ⟨?_, held⟩
  rintro ⟨rfl, rfl⟩
  rcases unreported with notReport | live
  · cases draws with
    | entry holds =>
      rw [orderly.unique holder named status _ holds held] at notReport
      cases notReport
    | child _ _ _ report =>
      rw [report] at notReport
      cases notReport
  · cases live.symm.trans exited

theorem Step.reported (step : Step reportRules family family') (orderly : family.Orderly)
    (reported : Reported none family) : Reported none family' := by
  cases step with
  | quiet quiet => exact reported.quiet quiet
  | drawn _ draws notReport => exact reported.drawn orderly draws (.inl notReport)
  | kept _ draws busy =>
    exact reported.drawn orderly draws (.inr (busy.resolve_right not_false))
  | reaped _ draws => exact reported.reaped draws
  | completes live allowed completes => exact reported.completes orderly live allowed completes
  | register nobody =>
    constructor
    · intro holder named exit holds
      exact absurd (nobody holder) (orderly.holds_present holder named _ holds)
    · intro holder named exit _ exited
      exact absurd (nobody named)
        (orderly.exit_present named (ne_none_iff_exists'.mpr ⟨exit, exited⟩))
  | fork =>
    constructor
    · intro holder named exit holds
      obtain ⟨parent, exited⟩ := reported.sound holder named exit holds
      have old := orderly.below named (by simp [parent])
      exact ⟨by simpa [Family.fork, old.ne] using parent, exited⟩
    · intro holder named exit notExempt exited parent present
      have old := orderly.below named
        (orderly.exit_present named (ne_none_iff_exists'.mpr ⟨exit, exited⟩))
      simp only [Family.fork, old.ne, if_false] at parent
      -- The new process has no children yet.
      have oldHolder : holder ≠ family.next := by
        rintro rfl
        rcases orderly.older named _ parent with ⟨isInit, parentIsInit⟩ | ⟨-, -, older⟩
        · exact old.ne (isInit.trans parentIsInit.symm)
        · exact lt_asymm old older
      simp only [Family.fork, oldHolder, if_false] at present
      exact reported.complete holder named exit notExempt exited parent present

end Family

def ProcScheme.Settled (scheme : ProcScheme) (pid : ProcessId) : Prop :=
  ∀ process, scheme.get? pid = some process → (scheme.get? process.ppid).isSome = true →
    (scheme.get? initPid).isSome = true →
    (pid = initPid ∨ ∀ child childProcess, scheme.get? child = some childProcess →
      child ≠ initPid → childProcess.ppid = pid → childProcess.status.exit? = none) ∧
    ∀ child childProcess, scheme.get? child = some childProcess → child ≠ initPid →
      childProcess.ppid = pid → ∀ entry ∈ childProcess.waitpid.entries,
        ∀ named, scheme.get? entry.2.1 = some named → named.status.exit? = none

theorem ProcScheme.Settled.of_alike {before after : ProcScheme} (alike : before.Alike after)
    {pid} (settled : before.Settled pid) : after.Settled pid := by
  intro process found parentThere initThere
  obtain ⟨old, oldFound, same⟩ := alike.symm.found found
  rw [alike.isSome, ← same.kin.ppid] at parentThere
  rw [alike.isSome] at initThere
  obtain ⟨children, maps⟩ := settled old oldFound parentThere initThere
  refine ⟨children.imp_right fun live => ?_, ?_⟩
  · intro child childProcess childFound notInit isChild
    obtain ⟨oldChild, oldChildFound, sameChild⟩ := alike.symm.found childFound
    rw [← sameChild.exit?]
    exact live child oldChild oldChildFound notInit (sameChild.kin.ppid.trans isChild)
  · intro child childProcess childFound notInit isChild entry member named namedFound
    obtain ⟨oldChild, oldChildFound, sameChild⟩ := alike.symm.found childFound
    obtain ⟨oldNamed, oldNamedFound, sameNamed⟩ := alike.symm.found namedFound
    rw [← sameNamed.exit?]
    rw [← sameChild.waitpid] at member
    exact maps child oldChild oldChildFound notInit (sameChild.kin.ppid.trans isChild) entry
      member oldNamed oldNamedFound

abbrev reportPolicy : Policy :=
  { Policy.free with
    newThread := fun process => process.status.exit? = none
    complete := ProcScheme.Settled
    complete_alike := fun alike _ settled => settled.of_alike alike }

theorem reportRules_follow : reportRules.Follow reportPolicy where
  fork _ _ _ _ _ := trivial
  late _ _ allowed := allowed
  complete scheme pid allowed := by
    intro ppid parent present initPresent
    obtain ⟨process, found, rfl⟩ := family_parent_found parent
    obtain ⟨children, maps⟩ := allowed process found
      (isSome_iff_exists.mpr ((family_present).mp present))
      (isSome_iff_exists.mpr ((family_present).mp initPresent))
    refine ⟨children.imp_right fun live => ?_, ?_⟩
    · intro child notInit isChild
      obtain ⟨childProcess, childFound, childParent⟩ := family_parent_found isChild
      rw [family_exit childFound]
      exact live child childProcess childFound notInit childParent
    · intro child notInit isChild named status holds _
      obtain ⟨childProcess, childFound, childParent⟩ := family_parent_found isChild
      obtain ⟨pgid, member⟩ := (family_holds childFound).mp holds
      cases namedFound : scheme.get? named with
      | none => simp [family, namedFound]
      | some namedProcess =>
        rw [family_exit namedFound]
        exact maps child childProcess childFound notInit childParent _ member namedProcess
          namedFound

theorem Manager.reported {manager} (reached : procmgr.ReachableWhile reportPolicy.Allows manager) :
    Family.Reported none manager.scheme.family ∧ manager.scheme.Idle := by
  have holds := Manager.family_invariant (motive := Family.Reported none) reportRules_follow ?_ ?_
    reached
  · exact ⟨holds.1, holds.2 not_false⟩
  · have nobody : ∀ pid, Manager.start.scheme.get? pid = none := fun pid => Table.get?_empty
    constructor
    · rintro holder named exit ⟨process, found, -⟩
      cases (nobody holder).symm.trans found
    · intro holder named exit _ exited
      simp [family, nobody] at exited
  · intro before after orderly step reported
    exact step.reported orderly reported

/-- Under the policy, the parent of a process that exited holds the report. -/
theorem exits_reported {manager : Manager} {pid : ProcessId} {process parent : Process}
    {signal : Option Nat} {status : Nat}
    (reached : procmgr.ReachableWhile reportPolicy.Allows manager)
    (found : manager.scheme.get? pid = some process)
    (exited : process.status = .exited signal status)
    (parentFound : manager.scheme.get? process.ppid = some parent) :
    WaitpidMap.Holds parent.waitpid pid (.terminated signal status) := by
  obtain ⟨reported, -⟩ := Manager.reported reached
  apply (family_holds parentFound).mp
  apply reported.complete process.ppid pid (signal, status) (by simp)
  · rw [family_exit found, exited]
    rfl
  · exact family_parent found
  · exact (family_present).mpr ⟨parent, parentFound⟩

instance (scheme : ProcScheme) (pid : ProcessId) : Decidable (scheme.Settled pid) :=
  inferInstanceAs (Decidable (∀ process ∈ scheme.get? pid,
    (scheme.get? process.ppid).isSome = true → (scheme.get? initPid).isSome = true →
    (pid = initPid ∨ ∀ child childProcess, scheme.processes.get? child = some childProcess →
      child ≠ initPid → childProcess.ppid = pid → childProcess.status.exit? = none) ∧
    ∀ child childProcess, scheme.processes.get? child = some childProcess → child ≠ initPid →
      childProcess.ppid = pid → ∀ entry ∈ childProcess.waitpid.entries,
        ∀ named ∈ scheme.get? entry.2.1, named.status.exit? = none))

def zombieRun : List Event :=
  boot ++ [fork 1 2 102, fork 2 3 103] ++ rest ++
    [death 102, .drained, death 103]

theorem exits_reported_zombie : ∃ manager init, procmgr.ReachableWhile reportPolicy.Allows manager ∧
    manager.scheme.get? initPid = some init ∧
    WaitpidMap.Holds init.waitpid 3 (.terminated none 0) := by
  have reached := procmgr.reachableWhile_replay reportPolicy.Allows zombieRun rfl
  exact ⟨_, _, reached, rfl, @exits_reported _ 3 _ _ none 0 reached rfl rfl rfl⟩

/-- A grandchild of init exits, then its parent, which had not waited for it. -/
def lostReportRun : List Event :=
  boot ++ [fork 1 2 102, fork 2 3 103] ++ rest ++
    [death 103, .drained, death 102]

/-- Init gets a child that exited and holds no report of it. -/
theorem report_lost : ∃ manager process init, procmgr.Reachable manager ∧
    manager.scheme.get? 3 = some process ∧ process.status = .exited none 0 ∧
    process.ppid = initPid ∧ manager.scheme.get? initPid = some init ∧
    ¬ ∃ status, WaitpidMap.Holds init.waitpid 3 status := by
  have reached := procmgr.reachable_replay lostReportRun rfl
  refine ⟨_, _, _, reached, rfl, rfl, rfl, rfl, ?_⟩
  rintro ⟨status, pgid, member⟩
  -- The only entry is that of process 2.
  rcases List.mem_singleton.mp member with ⟨⟩

end EosBase.Procmgr
