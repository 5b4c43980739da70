import EosBase.Procmgr.Refinement
import EosBase.Procmgr.Scenario

/-!
# Whose statuses a process holds

A status is recorded at the parent.  When a process exits, `work_on` gives its
children to init, but it moves the wait maps of the children instead of the map
of the process itself: init then holds statuses of its grandchildren, and the
process that exited keeps those of children it no longer has.  A process holds
the statuses of its own children only, as long as no exit finds such statuses
to misplace.
-/

namespace EosBase.Procmgr

open Scenario ProcScheme Family Option

variable {child : ProcessId} {family family' : Family} {pid waiter : ProcessId}

namespace Family

def Owned (family : Family) : Prop :=
  ∀ holder named status, family.holds holder named status → family.parent named = some holder

/-- Nothing is held that an exit would misplace: neither by the process, unless
it is init and keeps its children, nor by its children. -/
structure Unburdened (family : Family) (pid : ProcessId) : Prop where
  self : pid = initPid ∨ ∀ named status, ¬ family.holds pid named status
  children : ∀ child, child ≠ initPid → family.parent child = some pid →
    ∀ named status, ¬ family.holds child named status

def ownershipRules : Rules where
  fork _ _ := True
  complete family pid := ∀ ppid, family.parent pid = some ppid → family.parent ppid ≠ none →
    family.parent initPid ≠ none → family.Unburdened pid
  late := True

theorem Owned.record (owned : family.Owned) (status : WaitpidStatus)
    (isChild : family.parent child = some waiter) : (family.record waiter child status).Owned := by
  intro holder named other holds
  simp only [Family.record] at holds ⊢
  split at holds
  next same =>
    rw [same.1, same.2]
    exact isChild
  · exact owned holder named other holds

theorem Owned.quiet (owned : family.Owned) (quiet : family.Quiet family') : family'.Owned := by
  cases quiet with
  | grow => exact owned
  | record isChild _ _ _ => exact owned.record _ isChild

theorem Owned.adopt (owned : family.Owned) (unburdened : family.Unburdened pid)
    (notInit : child ≠ initPid) (isChild : family.parent child = some pid) :
    (family.adopt child).Owned := by
  intro holder named status holds
  simp only [Family.adopt] at holds ⊢
  split at holds
  next isInit =>
    -- The child has nothing to move.
    rcases holds with moved | ⟨-, kept⟩
    · exact absurd moved (unburdened.children child notInit isChild named status)
    · rw [isInit, owned initPid named status kept]
      exact ite_self _
  next holderNotInit =>
  have parent := owned holder named status holds.2
  split
  next same =>
    -- Only the exiting process could hold a status of the child.
    rw [same, isChild, some.injEq] at parent
    rw [parent] at unburdened
    rcases unburdened.self with isInit | nothing
    · exact absurd isInit holderNotInit
    · exact absurd holds.2 (nothing named status)
  · exact parent

theorem Unburdened.adopt (unburdened : family.Unburdened pid) (child : ProcessId) :
    (family.adopt child).Unburdened pid := by
  constructor
  · by_cases isInit : pid = initPid
    · exact .inl isInit
    · refine .inr fun named status holds => ?_
      simp only [Family.adopt, isInit, if_false] at holds
      exact (unburdened.self.resolve_left isInit) named status holds.2
  · intro other otherNotInit parent named status holds
    simp only [Family.adopt, otherNotInit, if_false] at holds
    simp only [Family.adopt, holds.1, if_false] at parent
    exact unburdened.children other otherNotInit parent named status holds.2

theorem Owned.completes (owned : family.Owned) (orderly : family.Orderly) {exit}
    (allowed : ownershipRules.complete family pid)
    (completes : family.Completes pid exit family') : family'.Owned := by
  refine completes.rule orderly (fun open' => open'.Owned ∧
    (open'.parent initPid ≠ none → open'.Unburdened pid)) Owned ?_ ?_ ?_ ?_ ?_ ?_
  · intro ppid _ _
    exact owned
  · intro ppid parent present
    refine ⟨owned, fun initPresent => ?_⟩
    obtain ⟨self, children⟩ := allowed ppid parent present initPresent
    exact ⟨self, children⟩
  · rintro ppid before after - hand ⟨owned, unburdened⟩
    cases hand with
    | grow =>
      refine ⟨owned, fun present => ?_⟩
      obtain ⟨self, children⟩ := unburdened present
      exact ⟨self, children⟩
    | adopt notInit isChild present =>
      exact ⟨owned.adopt (unburdened present) notInit isChild,
        fun _ => (unburdened present).adopt _⟩
  · intro ppid given _ isOpen _
    exact isOpen.1
  · intro ppid before after _ quiet owned
    exact owned.quiet quiet
  · intro ppid released settling owned
    exact owned.record _ settling.parent

theorem Owned.reaped (owned : family.Owned) {status} (draws : family.Draws waiter child status) :
    ((family.draw waiter child).remove child).Owned := by
  intro holder named other holds
  obtain ⟨-, notDrawn, held⟩ := holds
  have parent := owned holder named other held
  have otherChild : named ≠ child := by
    rintro rfl
    have isChild : family.parent named = some waiter := by
      cases draws with
      | entry holds => exact owned waiter named status holds
      | child isChild => exact isChild
    rw [isChild, some.injEq] at parent
    exact notDrawn ⟨parent.symm, rfl⟩
  simpa [remove, draw, otherChild] using parent

theorem Step.owned (step : Step ownershipRules family family') (orderly : family.Orderly)
    (owned : family.Owned) : family'.Owned := by
  have drawn : ∀ waiter child, (family.draw waiter child).Owned :=
    fun waiter child holder named status holds => owned holder named status holds.2
  cases step with
  | quiet quiet => exact owned.quiet quiet
  | drawn => exact drawn _ _
  | kept => exact drawn _ _
  | reaped _ draws => exact owned.reaped draws
  | completes _ allowed completes => exact owned.completes orderly allowed completes
  | register nobody =>
    intro holder named status holds
    exact absurd (nobody holder) (orderly.holds_present holder named status holds)
  | fork =>
    intro holder named status holds
    have parent := owned holder named status holds
    have old := orderly.below named (by simp [parent])
    simpa [Family.fork, old.ne] using parent

end Family

def ProcScheme.Unburdened (scheme : ProcScheme) (pid : ProcessId) : Prop :=
  ∀ process, scheme.get? pid = some process → (scheme.get? process.ppid).isSome = true →
    (scheme.get? initPid).isSome = true →
    (pid = initPid ∨ process.waitpid.entries = []) ∧
      ∀ child childProcess, scheme.get? child = some childProcess → child ≠ initPid →
        childProcess.ppid = pid → childProcess.waitpid.entries = []

theorem ProcScheme.Unburdened.of_alike {before after : ProcScheme} (alike : before.Alike after)
    {pid} (unburdened : before.Unburdened pid) : after.Unburdened pid := by
  intro process found parentThere initThere
  obtain ⟨old, oldFound, same⟩ := alike.symm.found found
  rw [alike.isSome, ← same.kin.ppid] at parentThere
  rw [alike.isSome] at initThere
  obtain ⟨self, children⟩ := unburdened old oldFound parentThere initThere
  refine ⟨by rwa [← same.waitpid], ?_⟩
  intro child childProcess childFound notInit isChild
  obtain ⟨oldChild, oldChildFound, sameChild⟩ := alike.symm.found childFound
  rw [← sameChild.waitpid]
  exact children child oldChild oldChildFound notInit (sameChild.kin.ppid.trans isChild)

abbrev ownershipPolicy : Policy :=
  { Policy.free with
    complete := ProcScheme.Unburdened
    complete_alike := fun alike _ unburdened => unburdened.of_alike alike }

theorem ownershipRules_follow : ownershipRules.Follow ownershipPolicy where
  fork _ _ _ _ _ := trivial
  late notLate := absurd trivial notLate
  complete scheme pid allowed := by
    intro ppid parent present initPresent
    obtain ⟨process, found, rfl⟩ := family_parent_found parent
    have holdsNothing : ∀ {holder : ProcessId} {map : Process},
        scheme.get? holder = some map → map.waitpid.entries = [] →
        ∀ named status, ¬ scheme.family.holds holder named status := by
      intro holder map mapFound nothing named status holds
      obtain ⟨pgid, member⟩ := (family_holds mapFound).mp holds
      rw [nothing] at member
      exact List.not_mem_nil member
    obtain ⟨self, children⟩ := allowed process found
      (isSome_iff_exists.mpr ((family_present).mp present))
      (isSome_iff_exists.mpr ((family_present).mp initPresent))
    refine ⟨self.imp_right (holdsNothing found), ?_⟩
    intro child notInit isChild
    obtain ⟨childProcess, childFound, childParent⟩ := family_parent_found isChild
    exact holdsNothing childFound (children child childProcess childFound notInit childParent)

structure ProcScheme.WaitsForChildren (scheme : ProcScheme) : Prop where
  entries : ∀ pid process, scheme.get? pid = some process →
    ∀ key child status, (key, child, status) ∈ process.waitpid.entries →
      key.pid = some child ∧
        ∃ childProcess, scheme.get? child = some childProcess ∧ childProcess.ppid = pid
  reports : ∀ kernel pid target flags reqId child status,
    (scheme.onWaitpid kernel pid target flags reqId).2 = .ready (.ok (child, status)) →
      child ≠ 0 → ∃ childProcess, scheme.get? child = some childProcess ∧ childProcess.ppid = pid

theorem ProcScheme.waitsForChildren {scheme : ProcScheme} (wellKeyed : scheme.WellKeyed)
    (owned : scheme.family.Owned) : scheme.WaitsForChildren := by
  constructor
  · intro pid process found key child status member
    have keyed := wellKeyed pid process found
    constructor
    · obtain ⟨pgid, keyEq⟩ := keyed.keyed _ member
      exact congrArg WaitpidKey.pid keyEq
    · exact family_parent_found (owned pid child status
        ((family_holds found).mpr (keyed.holds_of_mem member)))
  · intro kernel pid target flags reqId child status result notZero
    have outcome := onWaitpid_outcome wellKeyed kernel pid target flags reqId
    generalize scheme.onWaitpid kernel pid target flags reqId = waited at outcome result
    cases outcome with
    | failed => cases result
    | registered => cases result
    | nothing =>
      cases result
      exact absurd rfl notZero
    | taken found takes remains =>
      obtain ⟨rfl, -⟩ := Prod.mk.inj (grimReaper_snd result)
      cases takes with
      | entry holds =>
        exact family_parent_found (owned pid child _ ((family_holds found).mpr holds))
      | child targetFound parent => exact ⟨_, targetFound, parent⟩

/-- As long as no exit misplaces a status, waits are about children. -/
theorem waits_for_children {manager : Manager}
    (reached : procmgr.ReachableWhile ownershipPolicy.Allows manager) :
    manager.scheme.WaitsForChildren := by
  have holds := Manager.family_invariant (motive := Family.Owned) ownershipRules_follow ?_ ?_
    reached
  · exact waitsForChildren (Manager.wellKeyed reached.reachable) holds.1
  · rintro holder named status ⟨process, found, -⟩
    cases (Table.get?_empty).symm.trans found
  · intro before after orderly step owned
    exact step.owned orderly owned

instance (scheme : ProcScheme) (pid : ProcessId) : Decidable (scheme.Unburdened pid) :=
  inferInstanceAs (Decidable (∀ process ∈ scheme.get? pid,
    (scheme.get? process.ppid).isSome = true → (scheme.get? initPid).isSome = true →
    (pid = initPid ∨ process.waitpid.entries = []) ∧
      ∀ child childProcess, scheme.processes.get? child = some childProcess → child ≠ initPid →
        childProcess.ppid = pid → childProcess.waitpid.entries = []))

/-- A child of init forks and exits, and init gets the grandchild. -/
def handOverRun : List Event :=
  boot ++ [fork 1 2 102, fork 2 3 103] ++ rest ++
    [death 102, .drained, death 103]

theorem waits_for_children_handOver : ∃ manager,
    procmgr.ReachableWhile ownershipPolicy.Allows manager ∧
    ((manager.scheme.get? initPid).map fun init => init.waitpid.entries.map fun entry =>
      entry.2.1) = some [2, 3] ∧
    manager.scheme.WaitsForChildren := by
  have reached := procmgr.reachableWhile_replay ownershipPolicy.Allows handOverRun rfl
  exact ⟨_, reached, rfl, waits_for_children reached⟩

/-- Four generations: the youngest exits, then the child of init, which init
waits for. -/
def graftRun : List Event :=
  boot ++ [fork 1 2 102, fork 2 3 103, fork 3 4 104] ++
    rest ++ [death 104, .drained, death 102, .drained, .socketEvent, call 5 1 .waitpid 0 0]

/-- Init is told about, and reaps, a process that is not its child. -/
theorem waits_for_grandchild : ∃ manager, procmgr.Reachable manager ∧
    ((manager.scheme.get? 4).map fun process => process.ppid) = some 3 ∧
    (manager.scheme.onWaitpid (kernel 9 0) initPid .anyChild ⟨false, false, false⟩
      (.kernelId 6)).2 = .ready (.ok (4, 0)) ∧
    ¬ manager.scheme.WaitsForChildren := by
  have reached := procmgr.reachable_replay graftRun rfl
  refine ⟨_, reached, rfl, rfl, ?_⟩
  intro children
  obtain ⟨process, found, parent⟩ := children.reports (kernel 9 0) initPid .anyChild
    ⟨false, false, false⟩ (.kernelId 6) 4 0 rfl (by decide)
  cases found
  exact absurd parent (by decide)

end EosBase.Procmgr
