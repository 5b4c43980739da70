import EosBase.Procmgr.Groups
import EosBase.Procmgr.Refinement

/-!
# Waiting for a process group

The entries of a wait map stand in the order of their processes, but a wait for a
group compares groups.  So the entries that the lookup meets can send it away
from the one it looks for.  This module says exactly when such a wait reports a
child.
-/

namespace EosBase.Procmgr

open Scenario WaitpidKey ProcScheme List Manager

variable {child : ProcessId} {family family' : Family} {pid : ProcessId}

namespace Family

/-- No status is held of the identifier zero, which stands for no process. -/
def Named (family : Family) : Prop :=
  ∀ holder named status, family.holds holder named status → named ≠ 0

def freeRules : Rules where
  fork _ _ := True
  complete _ _ := True
  late := True

theorem pid_ne_zero (older : ∀ pid ppid, family.parent pid = some ppid →
      (pid = initPid ∧ ppid = initPid) ∨ (initPid < pid ∧ initPid ≤ ppid ∧ ppid < pid))
    {ppid} (parent : family.parent pid = some ppid) : pid ≠ 0 := by
  rcases older pid ppid parent with ⟨rfl, -⟩ | ⟨above, -, -⟩
  · decide
  · exact Nat.ne_zero_of_lt above

theorem Named.record (isNamed : family.Named) (waiter : ProcessId) (status : WaitpidStatus)
    (notZero : child ≠ 0) : (family.record waiter child status).Named := by
  intro holder named other holds
  simp only [Family.record] at holds
  split at holds
  next same =>
    rw [same.2]
    exact notZero
  · exact isNamed holder named other holds

theorem Named.adopt (isNamed : family.Named) (child : ProcessId) : (family.adopt child).Named := by
  intro holder named status holds
  simp only [Family.adopt] at holds
  split at holds
  · rcases holds with moved | ⟨-, kept⟩
    · exact isNamed child named status moved
    · exact isNamed initPid named status kept
  · exact isNamed holder named status holds.2

theorem Named.completes (isNamed : family.Named) (orderly : family.Orderly) {exit}
    (completes : family.Completes pid exit family') : family'.Named := by
  refine completes.rule orderly Named Named ?_ ?_ ?_ ?_ ?_ ?_
  · intro ppid _ _
    exact isNamed
  · intro ppid _ _
    exact isNamed
  · intro ppid before after settling hand isNamed
    cases hand with
    | grow => exact isNamed
    | adopt => exact isNamed.adopt _
  · intro ppid given _ isNamed _
    exact isNamed
  · intro ppid before after settling quiet isNamed
    cases quiet with
    | grow => exact isNamed
    | record isChild _ _ _ => exact isNamed.record _ _ (pid_ne_zero settling.older isChild)
  · intro ppid released settling isNamed
    exact isNamed.record _ _ (pid_ne_zero settling.older settling.parent)

theorem Step.named (step : Step freeRules family family') (orderly : family.Orderly)
    (isNamed : family.Named) : family'.Named := by
  cases step with
  | quiet quiet =>
    cases quiet with
    | grow => exact isNamed
    | record isChild _ _ _ => exact isNamed.record _ _ (pid_ne_zero orderly.older isChild)
  | fork => exact isNamed
  | register => exact isNamed
  | drawn | kept => exact fun holder named status holds => isNamed holder named status holds.2
  | reaped => exact fun holder named status holds => isNamed holder named status holds.2.2
  | completes _ _ completes => exact isNamed.completes orderly completes

end Family

variable {process : Process} {map : WaitpidMap} {pivot : Nat → Nat → Nat} {pgid : ProcessId}
  {index : Nat}

theorem Manager.held_ne_zero {manager} (reached : procmgr.Reachable manager) {holder status}
    (found : manager.scheme.get? holder = some process)
    (holds : WaitpidMap.Holds process.waitpid child status) : child ≠ 0 := by
  have follow : Family.freeRules.Follow Policy.free :=
    ⟨fun _ _ _ _ _ => trivial, fun _ _ _ => trivial, fun notLate => absurd trivial notLate⟩
  have isNamed := family_invariant (motive := Family.Named) follow ?_ ?_ (freely reached)
  · exact isNamed.1 holder child status ((family_holds found).mpr holds)
  · rintro holder named status ⟨process, found, -⟩
    cases (Table.get?_empty).symm.trans found
  · intro before after orderly step isNamed
    exact step.named orderly isNamed

namespace WaitpidMap

/-- The entries that a lookup of the group meets, in a tree of this shape, send it
to the index: those to the right belong to larger groups and those to the left to
smaller ones. -/
def LeadsTo (map : WaitpidMap) (pivot : Nat → Nat → Nat) (pgid : ProcessId) (index : Nat) : Prop :=
  ∀ met ∈ visited pivot index map.entries.length 0 map.entries.length,
    ∀ entry, map.entries[met]? = some entry → ∀ other, entry.1.pgid = some other →
      (index < met → pgid < other) ∧ (met < index → other < pgid)

variable {entry : WaitpidKey × ProcessId × WaitpidStatus}

section

variable (wellKeyed : map.WellKeyed)

include wellKeyed

theorem WellKeyed.cmp_group {other}
    (member : entry ∈ map.entries) (named : entry.1.pgid = some other) (pgid : ProcessId) :
    cmp ⟨none, some pgid⟩ entry.1 = compare pgid other := by
  obtain ⟨stored, keyed⟩ := wellKeyed.keyed entry member
  rw [keyed, Option.some.injEq] at named
  rw [keyed, ← named]
  rfl

theorem WellKeyed.directs_iff {met} : Directs (fun entry : WaitpidKey × ProcessId × WaitpidStatus =>
        cmp ⟨none, some pgid⟩ entry.1) map.entries index met ↔
      ∀ entry, map.entries[met]? = some entry → ∀ other, entry.1.pgid = some other →
        (index < met → pgid < other) ∧ (met < index → other < pgid) := by
  simp only [Directs]
  constructor
  · intro directs entry inside other named
    have compared := wellKeyed.cmp_group (mem_of_getElem? inside) named pgid
    have sent := directs entry inside
    rw [compared, Nat.compare_eq_lt, Nat.compare_eq_gt] at sent
    exact sent
  · intro directs entry inside
    obtain ⟨other, keyed⟩ := wellKeyed.keyed entry (mem_of_getElem? inside)
    have named : entry.1.pgid = some other := by rw [keyed]
    have compared := wellKeyed.cmp_group (mem_of_getElem? inside) named pgid
    rw [compared, Nat.compare_eq_lt, Nat.compare_eq_gt]
    exact directs entry inside other named

theorem WellKeyed.position_group_iff (inside : map.entries[index]? = some entry) :
    map.position cmp pivot ⟨none, some pgid⟩ = some index ↔
      entry.1.pgid = some pgid ∧ map.LeadsTo pivot pgid index := by
  have below : index < map.entries.length := (List.getElem?_eq_some_iff.mp inside).1
  have member := List.mem_of_getElem? inside
  unfold BTreeMap.position
  rw [search_eq_some_iff (le_of_eq (Nat.sub_zero _)) le_rfl (Nat.zero_le _) below]
  constructor
  · rintro ⟨⟨stored, storedInside, equal⟩, directed⟩
    cases inside.symm.trans storedInside
    refine ⟨wellKeyed.pgid_of_eq member equal, ?_⟩
    intro met visited
    exact (wellKeyed.directs_iff).mp (directed met visited)
  · rintro ⟨named, leads⟩
    refine ⟨⟨entry, inside, ?_⟩, ?_⟩
    · have compared := wellKeyed.cmp_group member named pgid
      exact compared.trans (Nat.compare_eq_eq.mpr rfl)
    · intro met visited
      exact (wellKeyed.directs_iff).mpr (leads met visited)

end

end WaitpidMap

namespace ProcScheme

variable {scheme : ProcScheme} {thisPid pgid : ProcessId} {target : WaitpidTarget}
  {flags : WaitFlags} {reqId : VirtualId} {kernel : Kernel}

/-- There is a child that the wait can be about: in the group, when one is named,
and any child at all when it is the own one. -/
def HasChildFor (scheme : ProcScheme) (thisPid : ProcessId) (target : WaitpidTarget) : Prop :=
  ∃ pid child, scheme.get? pid = some child ∧ child.ppid = thisPid ∧
    ∀ pgid, target = .procGroup pgid → pid ≠ thisPid ∧ child.pgid = pgid

def Targets (target : WaitpidTarget) (process : Process) (pgid : ProcessId) : Prop :=
  target = .procGroup pgid ∨ (target = .anyGroupMember ∧ pgid = process.pgid)

theorem hasChild_own_iff : (scheme.processes.any fun _ process => process.ppid == thisPid) = true ↔
      scheme.HasChildFor thisPid .anyGroupMember := by
  rw [Table.any_eq_true_iff]
  constructor
  · rintro ⟨pid, child, found, parent⟩
    exact ⟨pid, child, found, by simpa using parent, fun _ other => nomatch other⟩
  · rintro ⟨pid, child, found, parent, -⟩
    exact ⟨pid, child, found, by simpa using parent⟩

theorem hasChild_group_iff (grouped : scheme.Grouped) {group}
    (groupFound : scheme.groups.get? pgid = some group) :
    (group.processes.any fun member => member != thisPid &&
        (scheme.get? member).any fun process => process.ppid == thisPid) = true ↔
      scheme.HasChildFor thisPid (.procGroup pgid) := by
  rw [any_eq_true]
  constructor
  · rintro ⟨member, listed, passed⟩
    rw [← membersOf_eq groupFound] at listed
    obtain ⟨child, found, inGroup⟩ := grouped.member pgid member listed
    simp only [found, Option.any_some, Bool.and_eq_true, bne_iff_ne, beq_iff_eq] at passed
    refine ⟨member, child, found, passed.2, ?_⟩
    rintro _ ⟨⟩
    exact ⟨passed.1, inGroup⟩
  · rintro ⟨pid, child, found, parent, named⟩
    obtain ⟨other, inGroup⟩ := named pgid rfl
    refine ⟨pid, ?_, by simp [found, parent, other]⟩
    rw [← membersOf_eq groupFound, ← inGroup]
    exact grouped.mem found

theorem hasChild_group_found (grouped : scheme.Grouped)
    (hasChild : scheme.HasChildFor thisPid (.procGroup pgid)) :
    ∃ group, scheme.groups.get? pgid = some group := by
  obtain ⟨pid, child, found, -, named⟩ := hasChild
  apply exists_of_mem_membersOf
  rw [← (named pgid rfl).2]
  exact grouped.mem found

theorem onWaitpid_noChild (grouped : scheme.Grouped) (found : scheme.get? thisPid = some process)
    (targets : Targets target process pgid) (noChild : ¬ scheme.HasChildFor thisPid target) :
    (scheme.onWaitpid kernel thisPid target flags reqId).2 = .ready (.error .ECHILD) := by
  rcases targets with rfl | ⟨rfl, -⟩
  · simp only [onWaitpid, found]
    split
    · rfl
    next group groupFound =>
    rw [← hasChild_group_iff grouped groupFound] at noChild
    rw [if_neg noChild]
  · rw [← hasChild_own_iff, Bool.not_eq_true] at noChild
    simp [onWaitpid, noChild]

theorem onWaitpid_child (grouped : scheme.Grouped) (found : scheme.get? thisPid = some process)
    (targets : Targets target process pgid) (hasChild : scheme.HasChildFor thisPid target) :
    (scheme.onWaitpid kernel thisPid target flags reqId).2 =
      match process.waitpid.getKeyValue cmp kernel.pivot ⟨none, some pgid⟩ with
      | some (_, wPid, status) => reported flags wPid status
      | none => if flags.wnohang then .ready (.ok (0, 0)) else .pending := by
  have awaited : (scheme.awaitStatus thisPid flags reqId).2 =
      if flags.wnohang then .ready (.ok (0, 0)) else .pending := by
    unfold awaitStatus
    split <;> rfl
  rcases targets with rfl | ⟨rfl, rfl⟩
  · obtain ⟨group, groupFound⟩ := hasChild_group_found grouped hasChild
    have passes := (hasChild_group_iff grouped groupFound).mpr hasChild
    simp only [onWaitpid, found, groupFound]
    rw [if_pos passes]
    cases process.waitpid.getKeyValue cmp kernel.pivot ⟨none, some pgid⟩ with
    | none => exact awaited
    | some entry => exact congrArg Prod.snd grimReaper_eq
  · have passes := hasChild_own_iff.mpr hasChild
    simp only [onWaitpid, found, passes]
    cases process.waitpid.getKeyValue cmp kernel.pivot ⟨none, some process.pgid⟩ with
    | none => exact awaited
    | some entry => exact congrArg Prod.snd grimReaper_eq

end ProcScheme

/-- A wait for a group reports a child of the group that its flags ask for exactly
when it has a child to wait for and the lookup is led to such an entry. -/
theorem group_wait_finds_iff {manager : Manager} {thisPid pgid : ProcessId} {process : Process}
    {target : WaitpidTarget} (kernel : Kernel) (flags : WaitFlags) (reqId : VirtualId)
    (reached : procmgr.Reachable manager) (found : manager.scheme.get? thisPid = some process)
    (targets : ProcScheme.Targets target process pgid) :
    (∃ child status, (⟨some child, some pgid⟩, child, status) ∈ process.waitpid.entries ∧
        status.requested flags = true ∧ child ≠ 0 ∧
        (manager.scheme.onWaitpid kernel thisPid target flags reqId).2 =
          .ready (.ok (child, status.encode))) ↔
      manager.scheme.HasChildFor thisPid target ∧
        ∃ index child status,
          process.waitpid.entries[index]? = some (⟨some child, some pgid⟩, child, status) ∧
          status.requested flags = true ∧
          WaitpidMap.LeadsTo process.waitpid kernel.pivot pgid index := by
  have grouped := grouped reached
  have wellKeyed := wellKeyed reached thisPid process found
  constructor
  · rintro ⟨child, status, -, -, notZero, result⟩
    by_cases hasChild : manager.scheme.HasChildFor thisPid target
    · refine ⟨hasChild, ?_⟩
      rw [onWaitpid_child grouped found targets hasChild] at result
      split at result
      next key wPid taken met =>
        obtain ⟨index, position, inside, -⟩ := WaitpidMap.getKeyValue_found met
        obtain ⟨stored, keyed⟩ := wellKeyed.keyed _ (mem_of_getElem? inside)
        obtain ⟨named, leads⟩ := (wellKeyed.position_group_iff inside).mp position
        have sameKey : key = ⟨some wPid, some pgid⟩ := by
          have keyed : key = ⟨some wPid, some stored⟩ := keyed
          rw [keyed] at named ⊢
          rw [Option.some.inj named]
        subst sameKey
        refine ⟨index, wPid, taken, inside, ?_, leads⟩
        by_contra unasked
        rw [reported, if_neg unasked] at result
        cases result
      · split at result
        · simp only [Poll.ready.injEq, Except.ok.injEq, Prod.mk.injEq] at result
          exact absurd result.1.symm notZero
        · cases result
    · rw [onWaitpid_noChild grouped found targets hasChild] at result
      cases result
  · rintro ⟨hasChild, index, child, status, inside, asked, leads⟩
    have member := mem_of_getElem? inside
    have position := (wellKeyed.position_group_iff inside).mpr ⟨rfl, leads⟩
    have met : process.waitpid.getKeyValue cmp kernel.pivot ⟨none, some pgid⟩ =
        some (⟨some child, some pgid⟩, child, status) := by
      rw [BTreeMap.getKeyValue, position]
      exact inside
    refine ⟨child, status, member, asked, ?_, ?_⟩
    · exact held_ne_zero reached found ⟨pgid, member⟩
    · rw [onWaitpid_child grouped found targets hasChild, met]
      exact if_pos asked

def groupedRun : List Event :=
  boot ++ [fork 1 2 102] ++ rest ++ [death 102]

theorem group_wait_finds_only_child : ∃ manager process,
    procmgr.Reachable manager ∧ manager.scheme.get? initPid = some process ∧
    ∃ child status, (⟨some child, some initPid⟩, child, status) ∈ process.waitpid.entries ∧
      status.requested ⟨false, false, false⟩ = true ∧ child ≠ 0 ∧
      (manager.scheme.onWaitpid (kernel 9 0) initPid (.procGroup initPid)
        ⟨false, false, false⟩ (.kernelId 7)).2 = .ready (.ok (child, status.encode)) := by
  have reached := procmgr.reachable_replay groupedRun rfl
  refine ⟨_, _, reached, rfl, (group_wait_finds_iff _ _ _ reached rfl (.inl rfl)).mpr ?_⟩
  refine ⟨⟨2, _, rfl, rfl, ?_⟩, 0, 2, .terminated none 0, rfl, rfl, ?_⟩
  · rintro _ ⟨⟩
    exact ⟨by decide, rfl⟩
  · intro met visited
    cases visited

def misledRun : List Event :=
  boot ++
    [fork 1 2 102, call 5 2 .setpgid 0 0, fork 1 3 103] ++
    rest ++ [death 102, .drained, death 103]

/-- Init holds the exit of its child 3, which is in group 1, and a wait for group
1 does not find it. -/
theorem group_wait_misled : ∃ manager process,
    procmgr.Reachable manager ∧ manager.scheme.get? initPid = some process ∧
    (⟨some 3, some 1⟩, 3, .terminated none 0) ∈ process.waitpid.entries ∧ process.pgid = 1 ∧
    (manager.scheme.onWaitpid (kernel 9 0) initPid (.procGroup 1)
      ⟨false, false, false⟩ (.kernelId 7)).2 = .pending ∧
    (manager.scheme.onWaitpid (kernel 9 0) initPid (.procGroup 1)
      ⟨true, false, false⟩ (.kernelId 7)).2 = .ready (.ok (0, 0)) ∧
    (manager.scheme.onWaitpid (kernel 9 0) initPid .anyGroupMember
      ⟨false, false, false⟩ (.kernelId 7)).2 = .pending := by
  have reached := procmgr.reachable_replay misledRun rfl
  refine ⟨_, _, reached, rfl, ?_, rfl, rfl, rfl, rfl⟩
  exact .tail _ (.head _)

end EosBase.Procmgr
