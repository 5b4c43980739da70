import EosBase.Procmgr.Refinement
import EosBase.Procmgr.Scenario

/-!
# Descent from init

A process hands its children over to init when it exits, and only a process
that exited is reaped.  So every process descends from init, unless a process
gets children after its exit: `fork` does not look at the status of the process
whose handle it is called on.
-/

namespace EosBase.Procmgr

open Family Scenario Option ProcScheme

variable {exit : Exit} {pid : ProcessId} {family family' : Family} {waiter child : ProcessId}

namespace Family

/-- A report of an exit names a process that exited like this, or that is gone. -/
def Truthful (family : Family) : Prop :=
  ∀ holder named exit, family.holds holder named (Exit.report exit) →
    named < family.next ∧ (family.parent named = none ∨ family.exit named = some exit)

section

variable (truthful : family.Truthful)

include truthful

theorem Truthful.grow {next} (larger : family.next ≤ next) : (family.grow next).Truthful := by
  intro holder named exit holds
  obtain ⟨below, true⟩ := truthful holder named exit holds
  exact ⟨below.trans_le larger, true⟩

theorem Truthful.record {status} (isTrue : ∀ exit, status = Exit.report exit →
      child < family.next ∧ family.exit child = some exit) :
    (family.record waiter child status).Truthful := by
  intro holder named exit holds
  simp only [Family.record] at holds
  split at holds
  next same =>
    obtain ⟨-, rfl⟩ := same
    obtain ⟨below, exited⟩ := isTrue exit holds.symm
    exact ⟨below, .inr exited⟩
  · exact truthful holder named exit holds

theorem Truthful.quiet (quiet : family.Quiet family') : family'.Truthful := by
  cases quiet with
  | grow larger => exact truthful.grow larger
  | record _ _ _ reported =>
    refine truthful.record fun exit isReport => ?_
    rw [isReport, Exit.report_isTerminated] at reported
    cases reported

theorem Truthful.draw (waiter child : ProcessId) : (family.draw waiter child).Truthful :=
  fun holder named exit holds => truthful holder named exit holds.2

theorem Truthful.remove (pid : ProcessId) : (family.remove pid).Truthful := by
  intro holder named exit holds
  obtain ⟨below, true⟩ := truthful holder named exit holds.2
  refine ⟨below, ?_⟩
  by_cases same : named = pid
  · exact .inl (by simp [Family.remove, same])
  · simpa [Family.remove, same] using true

theorem Truthful.exited (exit : Exit) (present : family.parent pid ≠ none)
    (live : family.exit pid = none) : (family.exited pid exit).Truthful := by
  intro holder named other holds
  obtain ⟨below, true⟩ := truthful holder named other holds
  refine ⟨below, ?_⟩
  by_cases same : named = pid
  · subst same
    rcases true with missing | exited
    · exact absurd missing present
    · rw [live] at exited
      cases exited
  · simpa [Family.exited, same] using true

theorem Truthful.hand (hand : Hand pid family family') : family'.Truthful := by
  cases hand with
  | grow larger => exact truthful.grow larger
  | @adopt child notInit isChild present =>
    intro holder named exit holds
    -- Whoever held the report before, it was true then.
    obtain ⟨before, heldBefore⟩ : ∃ before, family.holds before named exit.report := by
      simp only [adopt] at holds
      split at holds
      · rcases holds with moved | ⟨-, kept⟩
        · exact ⟨child, moved⟩
        · exact ⟨initPid, kept⟩
      · exact ⟨holder, holds.2⟩
    obtain ⟨below, true⟩ := truthful before named exit heldBefore
    refine ⟨below, true.imp_left fun missing => ?_⟩
    by_cases same : named = child
    · rw [same, isChild] at missing
      cases missing
    · simpa [adopt, same] using missing

theorem Truthful.completes (orderly : family.Orderly) (live : family.exit pid = none)
    (completes : family.Completes pid exit family') : family'.Truthful := by
  have exited : family.parent pid ≠ none → (family.exited pid exit).Truthful :=
    fun present => truthful.exited exit present live
  refine completes.rule orderly Truthful Truthful ?_ ?_ ?_ ?_ ?_ ?_
  · intro ppid settling _
    exact exited (by
      simpa [Family.exited] using ne_none_iff_exists'.mpr ⟨_, settling.parent⟩)
  · intro ppid parent _
    exact exited (by simp [parent])
  · intro ppid before after _ hand truthful
    exact truthful.hand hand
  · intro ppid given _ truthful _
    exact truthful
  · intro ppid before after _ quiet truthful
    exact truthful.quiet quiet
  · intro ppid released settling truthful
    refine truthful.record fun other isReport => ?_
    rw [← Exit.report_injective isReport]
    exact ⟨settling.below, settling.exited⟩

end

theorem Step.truthful {rules} (step : Step rules family family') (orderly : family.Orderly)
    (truthful : family.Truthful) : family'.Truthful := by
  cases step with
  | quiet quiet => exact truthful.quiet quiet
  | drawn | kept => exact truthful.draw _ _
  | reaped => exact (truthful.draw _ _).remove _
  | completes live _ completes => exact truthful.completes orderly live completes
  | register nobody =>
    intro holder named exit holds
    exact absurd (nobody holder) (orderly.holds_present holder named _ holds)
  | fork =>
    intro holder named exit holds
    obtain ⟨below, true⟩ := truthful holder named exit holds
    refine ⟨below.trans (Nat.lt_succ_self _), ?_⟩
    simpa [Family.fork, below.ne] using true

/-- Every parent is there, and nobody who exited has children, except for init
and for a process whose exit is not complete. -/
structure Lineage (exempt : ProcessId) (family : Family) : Prop where
  parents : ∀ pid ppid, family.parent pid = some ppid → family.parent ppid ≠ none
  exited : ∀ pid, pid ≠ initPid → pid ≠ exempt → family.exit pid ≠ none → family.Childless pid

def Descends (family : Family) : Prop :=
  family.parent initPid ≠ none → Lineage initPid family

def lineageRules : Rules where
  fork family pid := family.exit pid = none ∨ pid = initPid
  complete _ _ := True
  late := True

theorem Lineage.quiet {exempt} (lineage : Lineage exempt family) (quiet : family.Quiet family') :
    Lineage exempt family' := by
  cases quiet with
  | grow | record => exact ⟨lineage.parents, lineage.exited⟩

theorem Lineage.hand {exempt} (lineage : Lineage exempt family)
    (hand : Hand pid family family') : Lineage exempt family' := by
  cases hand with
  | grow => exact ⟨lineage.parents, lineage.exited⟩
  | @adopt child notInit isChild present =>
    -- Those who were there are there.
    have stays : ∀ other, family.parent other ≠ none →
        (family.adopt child).parent other ≠ none := by
      intro other there
      by_cases same : other = child <;> simp [adopt, same, there]
    constructor
    · intro other otherParent parent
      by_cases same : other = child
      · simp only [adopt, same, if_true, some.injEq] at parent
        exact parent ▸ stays initPid present
      · simp only [adopt, same, if_false] at parent
        exact stays otherParent (lineage.parents other otherParent parent)
    · intro other otherNotInit notExempt exited named namedNotInit parent
      by_cases same : named = child
      · simp only [adopt, same, if_true, some.injEq] at parent
        exact otherNotInit parent.symm
      · simp only [adopt, same, if_false] at parent
        exact lineage.exited other otherNotInit notExempt exited named namedNotInit parent

section

variable (descends : family.Descends)

include descends

theorem Descends.quiet (quiet : family.Quiet family') :
    family'.Descends := by
  intro present
  refine (descends ?_).quiet quiet
  cases quiet with
  | grow => exact present
  | record => exact present

section

variable (orderly : family.Orderly)

include orderly

theorem Descends.completes (completes : family.Completes pid exit family') : family'.Descends := by
  refine completes.rule orderly (fun open' => open'.parent initPid ≠ none → Lineage pid open')
    Descends ?_ ?_ ?_ ?_ ?_ ?_
  · -- With init there, the parent is there.
    intro ppid settling missing present
    exact absurd missing ((descends present).parents pid ppid settling.parent)
  · intro ppid _ _ present
    have lineage := descends present
    refine ⟨lineage.parents, ?_⟩
    intro other notInit notPid exited
    simp only [Family.exited, notPid, if_false] at exited
    exact lineage.exited other notInit notInit exited
  · intro ppid before after _ hand lineage present
    refine (lineage ?_).hand hand
    cases hand with
    | grow => exact present
    | adopt notInit => simpa [adopt, notInit.symm] using present
  · intro ppid given _ lineage all present
    obtain ⟨parents, exited⟩ := lineage present
    refine ⟨parents, ?_⟩
    intro other notInit _ otherExited
    rcases all with missing | rfl | childless
    · exact absurd missing present
    · exact exited other notInit notInit otherExited
    · by_cases same : other = pid
      · exact same ▸ childless
      · exact exited other notInit same otherExited
  · intro ppid before after _ quiet descends
    exact descends.quiet quiet
  · intro ppid released _ descends present
    have lineage := descends present
    exact ⟨lineage.parents, lineage.exited⟩

theorem Descends.fork {parentPid} (there : family.parent parentPid ≠ none)
    (allowed : family.exit parentPid = none ∨ parentPid = initPid) :
    (family.fork parentPid).Descends := by
  intro present
  have older := orderly.below parentPid there
  -- The new process is not init: it is younger than its parent.
  have presentBefore : family.parent initPid ≠ none := by
    by_cases isNew : initPid = family.next
    · rcases ne_none_iff_exists'.mp there with ⟨ppid, parent⟩
      rcases orderly.older parentPid ppid parent with ⟨rfl, -⟩ | ⟨above, -, -⟩
      · exact there
      · exact absurd isNew (above.trans older).ne
    · simpa [Family.fork, isNew] using present
  obtain ⟨parents, exited⟩ := descends presentBefore
  have stays : ∀ other, family.parent other ≠ none →
      (family.fork parentPid).parent other ≠ none := by
    intro other otherThere
    by_cases isNew : other = family.next <;> simp [Family.fork, isNew, otherThere]
  constructor
  · intro other otherParent parent
    by_cases isNew : other = family.next
    · simp only [Family.fork, isNew, if_true, some.injEq] at parent
      exact parent ▸ stays parentPid there
    · simp only [Family.fork, isNew, if_false] at parent
      exact stays otherParent (parents other otherParent parent)
  · intro other notInit _ otherExited child childNotInit parent
    by_cases isNew : child = family.next
    · simp only [Family.fork, isNew, if_true, some.injEq] at parent
      subst parent
      rcases allowed with live | isInit
      · exact otherExited live
      · exact notInit isInit
    · simp only [Family.fork, isNew, if_false] at parent
      exact exited other notInit notInit otherExited child childNotInit parent

theorem Descends.reaped
    (truthful : family.Truthful) (draws : family.Draws waiter child exit.report) :
    ((family.draw waiter child).remove child).Descends := by
  intro present
  have notInit : child ≠ initPid := by
    rintro rfl
    simp [remove] at present
  have presentBefore : family.parent initPid ≠ none := by
    simpa [remove, draw, notInit.symm] using present
  have gone : family.parent child = none ∨ family.exit child ≠ none := by
    cases draws with
    | entry holds =>
      refine (truthful waiter child exit holds).2.imp_right fun exited => ?_
      simp [exited]
    | child _ _ exited => exact .inr (by simp [exited])
  obtain ⟨parents, exited⟩ := descends presentBefore
  constructor
  · intro other otherParent parent
    by_cases same : other = child
    · simp [remove, same] at parent
    simp only [remove, draw, same, if_false] at parent ⊢
    have there := parents other otherParent parent
    by_cases lost : otherParent = child
    · subst lost
      rcases gone with missing | hasExited
      · exact absurd missing there
      by_cases isInit : other = initPid
      · subst isInit
        rcases orderly.older _ _ parent with ⟨-, parentIsInit⟩ | ⟨above, -, -⟩
        · exact absurd parentIsInit notInit
        · exact absurd above (lt_irrefl _)
      · exact absurd parent (exited _ notInit notInit hasExited other isInit)
    · simpa [lost] using there
  · intro other otherNotInit _ otherExited named namedNotInit parent
    by_cases same : named = child
    · simp [remove, same] at parent
    by_cases sameOther : other = child
    · simp [remove, sameOther] at otherExited
    simp only [remove, draw, same, sameOther, if_false] at parent otherExited
    exact exited other otherNotInit otherNotInit otherExited named namedNotInit parent

end

end

theorem Step.descends (step : Step lineageRules family family') (orderly : family.Orderly)
    (truthful : family.Truthful) (descends : family.Descends) : family'.Descends := by
  -- A status that is taken changes no parent and no exit.
  have drawn : ∀ waiter child, (family.draw waiter child).Descends := fun _ _ present =>
    ⟨(descends present).parents, (descends present).exited⟩
  cases step with
  | quiet quiet => exact descends.quiet quiet
  | fork there allowed => exact descends.fork orderly there allowed
  | drawn => exact drawn _ _
  | kept => exact drawn _ _
  | reaped _ draws => exact descends.reaped orderly truthful draws
  | completes _ _ completes => exact descends.completes orderly completes
  | register nobody =>
    intro _
    constructor
    · intro pid ppid parent
      by_cases isInit : pid = initPid
      · simp only [Family.register, isInit, if_true, some.injEq] at parent
        simp [Family.register, ← parent]
      · simp [Family.register, isInit, nobody] at parent
    · intro pid _ _ exited
      exact absurd (nobody pid) (orderly.exit_present pid exited)

end Family

/-- The chain of parents stays among the processes and ends at init. -/
inductive ProcScheme.ReachesInit (scheme : ProcScheme) : ProcessId → Prop where
  | init {process : Process} (found : scheme.get? initPid = some process) :
      ReachesInit scheme initPid
  | parent {pid : ProcessId} {process : Process} (found : scheme.get? pid = some process)
      (chain : ReachesInit scheme process.ppid) : ReachesInit scheme pid

theorem ProcScheme.reachesInit {scheme : ProcScheme} (orderly : scheme.family.Orderly)
    (descends : scheme.family.Descends) {init}
    (initFound : scheme.get? initPid = some init) (process : Process)
    (found : scheme.get? pid = some process) : scheme.ReachesInit pid := by
  have lineage := descends ((family_present).mpr ⟨init, initFound⟩)
  -- By induction on the identifier: a parent is older than its child.
  induction pid using Nat.strong_induction_on generalizing process with
  | _ pid ih =>
    have parent := family_parent found
    rcases orderly.older pid process.ppid parent with ⟨rfl, -⟩ | ⟨-, -, older⟩
    · exact .init found
    · obtain ⟨parentProcess, parentFound⟩ :=
        (family_present).mp (lineage.parents pid process.ppid parent)
      exact .parent found (ih _ older parentProcess parentFound)

abbrev lineagePolicy : Policy :=
  { Policy.free with fork := fun pid parent => parent.status.exit? = none ∨ pid = initPid }

theorem lineageRules_follow : lineageRules.Follow lineagePolicy where
  fork scheme pid process found allowed := by
    refine allowed.imp_left fun live => ?_
    rw [family_exit found, live]
  complete _ _ _ := trivial
  late notLate := absurd trivial notLate

/-- As long as no process other than init forks after its exit, the parents of
every process lead to init while init is there. -/
theorem descent_from_init {manager : Manager} {init : Process}
    (reached : procmgr.ReachableWhile lineagePolicy.Allows manager)
    (initFound : manager.scheme.get? initPid = some init) (pid : ProcessId) (process : Process)
    (found : manager.scheme.get? pid = some process) : manager.scheme.ReachesInit pid := by
  have nobody : ∀ pid, Manager.start.scheme.get? pid = none := fun pid => Table.get?_empty
  have holds := Manager.family_invariant
    (motive := fun family => family.Truthful ∧ family.Descends) lineageRules_follow ?_ ?_ reached
  · exact reachesInit (Manager.orderly reached.reachable) holds.1.2 initFound process found
  · refine ⟨?_, fun present => absurd ?_ present⟩
    · rintro holder named exit ⟨holderProcess, holderFound, -⟩
      cases (nobody holder).symm.trans holderFound
    · simp [family, nobody]
  · rintro before after orderly step ⟨truthful, descends⟩
    exact ⟨step.truthful orderly truthful, step.descends orderly truthful descends⟩

def orphanRun : List Event :=
  boot ++ [fork 1 2 102, fork 2 3 103] ++ rest ++
    [death 102]

theorem descent_from_init_orphan : ∃ manager, procmgr.ReachableWhile lineagePolicy.Allows manager ∧
    ((manager.scheme.get? 3).map fun process => process.ppid) = some initPid ∧
    manager.scheme.ReachesInit 3 := by
  have reached := procmgr.reachableWhile_replay lineagePolicy.Allows orphanRun rfl
  exact ⟨_, reached, rfl, descent_from_init reached rfl 3 _ rfl⟩

def lateForkRun : List Event :=
  boot ++ [fork 1 2 102] ++ rest ++
    [death 102, .drained, .socketEvent, fork 2 3 103, call 5 1 .waitpid 0 0]

theorem late_fork_has_no_parent : ∃ manager, procmgr.Reachable manager ∧
    (manager.scheme.get? initPid).isSome = true ∧ (manager.scheme.get? 3).isSome = true ∧
    ¬ manager.scheme.ReachesInit 3 := by
  have reached := procmgr.reachable_replay lateForkRun rfl
  refine ⟨_, reached, rfl, rfl, ?_⟩
  intro chain
  -- The parent of the late child is process 2, which is gone.
  cases chain with
  | parent found chain =>
    cases found
    cases chain with
    | parent found _ => cases found

/-- Also after a late fork a parent is older than its child, and nobody descends from itself. -/
theorem parent_older {manager : Manager} {pid process} (reached : procmgr.Reachable manager)
    (found : manager.scheme.get? pid = some process) (other : pid ≠ initPid) :
    initPid ≤ process.ppid ∧ process.ppid < pid := by
  rcases (Manager.fresh reached).parent pid process found with ⟨isInit, -⟩ | ⟨-, older⟩
  · exact absurd isInit other
  · exact older

theorem parent_older_late : ∃ manager process, procmgr.Reachable manager ∧
    manager.scheme.get? 3 = some process ∧ process.ppid < 3 := by
  have reached := procmgr.reachable_replay lateForkRun rfl
  exact ⟨_, _, reached, rfl, (parent_older reached rfl (by decide)).2⟩

end EosBase.Procmgr
