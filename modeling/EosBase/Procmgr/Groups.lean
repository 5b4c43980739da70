import EosBase.Procmgr.Identity
import EosBase.Procmgr.Scenario

/-!
# Process groups

Which group a process belongs to is stored twice: in the process and in the
member list of the group.  The two agree in every reachable state.
-/

namespace EosBase.Procmgr

open List Option Scenario

def membersOf (groups : Table ProcessId Pgrp) (grp : ProcessId) : List ProcessId :=
  ((groups.get? grp).map Pgrp.processes).getD []

variable {groups : Table ProcessId Pgrp} {grp pid pgid : ProcessId}

theorem membersOf_eq {group} (found : groups.get? grp = some group) :
    membersOf groups grp = group.processes := by
  simp [membersOf, found]

theorem exists_of_mem_membersOf (listed : pid ∈ membersOf groups grp) :
    ∃ group, groups.get? grp = some group := by
  cases found : groups.get? grp with
  | none => simp [membersOf, found] at listed
  | some group => exact ⟨group, rfl⟩

theorem membersOf_dropMember : membersOf (dropMember groups pgid pid) grp =
      if grp = pgid then (membersOf groups grp).filter fun member => member != pid
      else membersOf groups grp := by
  unfold membersOf
  rw [get?_dropMember]
  split
  · cases groups.get? grp with
    | none => rfl
    | some group =>
      simp only [bind_some, map_some, getD_some]
      split
      next empty =>
        have nil : (group.without pid).processes = [] := by simpa using empty
        exact nil.symm
      · rfl
  · rfl

/-- Every process is listed once in its group and nowhere else, and no group is
empty. -/
structure ProcScheme.Grouped (scheme : ProcScheme) : Prop where
  listed : ∀ pid process, scheme.get? pid = some process →
    (membersOf scheme.groups process.pgid).count pid = 1
  member : ∀ grp pid, pid ∈ membersOf scheme.groups grp →
    ∃ process, scheme.get? pid = some process ∧ process.pgid = grp
  nonempty : ∀ grp group, scheme.groups.get? grp = some group → group.processes ≠ []

variable {scheme scheme' : ProcScheme}

theorem count_dropMember {other} : (membersOf (dropMember groups pgid pid) grp).count other =
      if grp = pgid ∧ other = pid then 0 else (membersOf groups grp).count other := by
  rw [membersOf_dropMember]
  by_cases here : grp = pgid
  · rw [if_pos here]
    by_cases same : other = pid
    · rw [if_pos ⟨here, same⟩, count_eq_zero]
      simp [same]
    · rw [if_neg fun both => same both.2, count_filter (by simpa using same)]
  · rw [if_neg here, if_neg fun both => here both.1]

theorem count_added {other} :
    (if grp = pgid then [pid] else []).count other = if grp = pgid ∧ other = pid then 1 else 0 := by
  by_cases here : grp = pgid
  · simp [here, count_singleton, beq_iff_eq, @eq_comm _ pid other]
  · simp [here]

namespace ProcScheme

theorem grouped_of_count (count : ∀ grp pid, (membersOf scheme.groups grp).count pid =
      if (scheme.get? pid).map Process.pgid = some grp then 1 else 0)
    (nonempty : ∀ grp group, scheme.groups.get? grp = some group → group.processes ≠ []) :
    scheme.Grouped := by
  refine ⟨?_, ?_, nonempty⟩
  · intro pid process found
    rw [count, found]
    exact if_pos rfl
  · intro grp pid listed
    have positive := count_pos_iff.mpr listed
    rw [count] at positive
    split at positive
    next inGroup => exact map_eq_some_iff.mp inGroup
    · cases positive

section

variable (grouped : scheme.Grouped) {process : Process}

include grouped

theorem Grouped.mem
    (found : scheme.get? pid = some process) : pid ∈ membersOf scheme.groups process.pgid := by
  have once := grouped.listed pid process found
  exact count_pos_iff.mp (by omega)

/-- A group lists its members once, and nobody else. -/
theorem Grouped.count (grp pid : ProcessId) : (membersOf scheme.groups grp).count pid =
    if (scheme.get? pid).map Process.pgid = some grp then 1 else 0 := by
  split
  next inGroup =>
    obtain ⟨process, found, rfl⟩ := map_eq_some_iff.mp inGroup
    exact grouped.listed pid process found
  next outside =>
    rw [count_eq_zero]
    intro listed
    exact outside (map_eq_some_iff.mpr (grouped.member grp pid listed))

theorem Grouped.of_pgid (groups : scheme'.groups = scheme.groups)
    (same : ∀ pid, (scheme'.get? pid).map Process.pgid = (scheme.get? pid).map Process.pgid) :
    scheme'.Grouped := by
  refine grouped_of_count ?_ ?_
  · intro grp pid
    rw [groups, same]
    exact grouped.count grp pid
  · rw [groups]
    exact grouped.nonempty

theorem Grouped.set {before after} (found : scheme.get? pid = some before)
    (pgid : after.pgid = before.pgid) : (scheme.set pid after).Grouped := by
  refine grouped.of_pgid rfl ?_
  intro other
  rw [get?_set]
  split
  next equality =>
    subst equality
    simp [found, pgid]
  · rfl

theorem Grouped.reap (pid : ProcessId) : (scheme.reap pid).Grouped := by
  rcases reap_cases with same | ⟨process, reaped⟩
  · rw [same]
    exact grouped
  refine grouped_of_count ?_ ?_
  · intro grp other
    rw [reaped.groups, count_dropMember, grouped.count, reaped.get?]
    by_cases same : other = pid
    · simp [same, reaped.found, eq_comm]
    · simp [same]
  · intro grp group found
    rw [reaped.groups] at found
    obtain ⟨before, beforeFound, ⟨-, -, nonempty⟩ | ⟨-, rfl⟩⟩ := dropMember_found found
    · exact nonempty
    · exact grouped.nonempty grp group beforeFound

theorem Grouped.forked (fresh : scheme.Fresh) {parentPid parent}
    (found : scheme.get? parentPid = some parent)
    (thread : Thread) : (scheme.forked parentPid parent thread).Grouped := by
  obtain ⟨group, groupFound⟩ := exists_of_mem_membersOf (grouped.mem found)
  have members : ∀ grp, membersOf (scheme.forked parentPid parent thread).groups grp =
      membersOf scheme.groups grp ++ if grp = parent.pgid then [scheme.nextId] else [] := by
    intro grp
    unfold membersOf
    rw [groups_forked]
    split
    next equality =>
      subst equality
      simp [groupFound]
    · simp
  have absent : scheme.get? scheme.nextId = none := by
    by_contra present
    obtain ⟨process, processFound⟩ := ne_none_iff_exists'.mp present
    exact (fresh.process scheme.nextId process processFound).1.false
  refine grouped_of_count ?_ ?_
  · intro grp other
    rw [members, count_append, count_added, grouped.count, get?_forked]
    have pgid : (forkedProcess parent parentPid scheme.nextId thread).pgid = parent.pgid := rfl
    by_cases same : other = scheme.nextId
    · simp [same, absent, pgid, eq_comm]
    · simp [same]
  · intro grp after afterFound
    rw [groups_forked] at afterFound
    split at afterFound
    · obtain ⟨before, -, rfl⟩ := map_eq_some_iff.mp afterFound
      simp
    · exact grouped.nonempty grp after afterFound

theorem Grouped.regrouped {newPgid} (found : scheme.get? pid = some process)
    (changes : process.pgid ≠ newPgid) : (scheme.regrouped pid process.pgid newPgid).Grouped := by
  have members : ∀ grp, membersOf (scheme.regrouped pid process.pgid newPgid).groups grp =
      membersOf (dropMember scheme.groups process.pgid pid) grp ++
        if grp = newPgid then [pid] else [] := by
    intro grp
    unfold membersOf
    rw [groups_regrouped changes]
    split
    next same =>
      rw [same, get?_dropMember, if_neg (Ne.symm changes)]
      simp
    · simp
  refine grouped_of_count ?_ ?_
  · intro grp other
    rw [members, count_append, count_added, count_dropMember, grouped.count, get?_regrouped]
    by_cases same : other = pid
    · simp [same, found, eq_comm]
    · simp [same]
  · intro grp group groupFound
    rw [groups_regrouped changes] at groupFound
    split at groupFound
    · cases groupFound
      simp
    · obtain ⟨before, beforeFound, ⟨-, -, nonempty⟩ | ⟨-, rfl⟩⟩ := dropMember_found groupFound
      · exact nonempty
      · exact grouped.nonempty grp group beforeFound

end

theorem Grouped.withInit (thread : Thread) (noProcess : ∀ pid, scheme.get? pid = none)
    (noGroup : ∀ grp, scheme.groups.get? grp = none) : (scheme.withInit thread).Grouped := by
  refine grouped_of_count ?_ ?_
  · intro grp pid
    rw [get?_withInit, noProcess]
    simp only [membersOf, ProcScheme.withInit, Table.get?_insert, noGroup]
    have pgid : (initProcess thread).pgid = initPid := rfl
    by_cases here : grp = initPid
    · by_cases same : pid = initPid
      · simp [here, same, pgid]
      · simp [here, same, Ne.symm same]
    · simp [here, pgid, Ne.symm here]
  · intro grp group found
    simp only [ProcScheme.withInit, Table.get?_insert] at found
    split at found
    · cases found
      simp
    · rw [noGroup] at found
      cases found

theorem Grouped.reparent (grouped : scheme.Grouped) (currentPid child : ProcessId) :
    (reparent currentPid scheme child).Grouped := by
  refine grouped.of_pgid (groups_reparent scheme).1 ?_
  intro pid
  rcases reparent_cases with ⟨-, same⟩ | ⟨process, adopted⟩
  · rw [same]
  rw [adopted.get?]
  split
  next equality =>
    subst equality
    rw [Option.map_map]
    rfl
  split
  next equality =>
    subst equality
    rw [adopted.found]
    rfl
  · rfl

end ProcScheme

theorem Edit.grouped {policy kind first second}
    (edit : Edit policy kind first second) (small : kind.Small)
    (fresh : first.1.Fresh) (grouped : first.1.Grouped) : second.1.Grouped := by
  cases edit with
  | wait | complete => exact absurd small (by decide)
  | process found edit => exact grouped.set found edit.sameKin.pgid
  | reap pid => exact grouped.reap pid
  | fork found _ thread => exact grouped.forked fresh found thread
  | registerInit thread noProcess noGroup => exact .withInit thread noProcess noGroup
  | regroup found _ changes _ => exact grouped.regrouped found changes
  | setSid found _ _ => exact grouped.set found rfl
  | reparent current child => exact grouped.reparent current child
  | handles => exact ⟨grouped.listed, grouped.member, grouped.nonempty⟩
  | internal processes groups _ _ _ _ =>
    refine grouped.of_pgid groups ?_
    intro pid
    rw [ProcScheme.get?, processes]
    rfl

theorem grouped_start : Manager.start.scheme.Grouped := by
  refine ProcScheme.grouped_of_count (fun grp pid => rfl) ?_
  intro grp group found
  cases (Table.get?_empty).symm.trans found

theorem Manager.grouped {manager} (reached : procmgr.Reachable manager) :
    manager.scheme.Grouped := by
  refine (scheme_invariant (motive := fun scheme => scheme.Fresh ∧ scheme.Grouped)
    ⟨fresh_start, grouped_start⟩ ?_ (freely reached)).2
  rintro kind - before after edit small ⟨fresh, grouped⟩
  exact ⟨edit.fresh small fresh, edit.grouped small fresh grouped⟩

/-- Each process is listed exactly once in the group that it names, every number that a
group lists is a process of the group, and no group is empty. -/
structure ProcScheme.GroupTable (scheme : ProcScheme) : Prop where
  listedOnce : ∀ pid process, scheme.get? pid = some process →
    ∃ group, scheme.groups.get? process.pgid = some group ∧ group.processes.count pid = 1
  memberNames : ∀ grp group pid, scheme.groups.get? grp = some group → pid ∈ group.processes →
    ∃ process, scheme.get? pid = some process ∧ process.pgid = grp
  nonempty : ∀ grp group, scheme.groups.get? grp = some group → group.processes ≠ []

theorem group_table_consistent {manager : Manager} (reached : procmgr.Reachable manager) :
    manager.scheme.GroupTable := by
  have grouped := Manager.grouped reached
  refine ⟨?_, ?_, grouped.nonempty⟩
  · intro pid process found
    obtain ⟨group, groupFound⟩ := exists_of_mem_membersOf (grouped.mem found)
    have once := grouped.listed pid process found
    rw [membersOf_eq groupFound] at once
    exact ⟨group, groupFound, once⟩
  · intro grp group pid groupFound listed
    rw [← membersOf_eq groupFound] at listed
    exact grouped.member grp pid listed

def jobRun : List Event :=
  boot ++ [fork 1 2 102, call 5 2 .setpgid 0 0, fork 2 3 103]

theorem group_table_consistent_job : ∃ manager, procmgr.Reachable manager ∧
    (manager.scheme.groups.get? 2).map Pgrp.processes = some [2, 3] ∧
    manager.scheme.GroupTable := by
  have reached := procmgr.reachable_replay jobRun rfl
  exact ⟨_, reached, rfl, group_table_consistent reached⟩

end EosBase.Procmgr
