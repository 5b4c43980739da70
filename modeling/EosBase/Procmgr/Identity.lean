import EosBase.Procmgr.Registration

/-!
# Process identifiers

Identifiers are given out in increasing order, so the parent of a process is
older than the process, and a process that is gone does not come back.
-/

namespace EosBase.Procmgr

open List ProcScheme Option

variable {policy : Policy} {kinds : List Kind} {first second : ProcScheme.Awakening}

/-- Identifiers in use are below the next one, and a parent is older than its
child. -/
structure ProcScheme.Fresh (scheme : ProcScheme) : Prop where
  start : 2 ≤ scheme.nextId
  process : ∀ pid process, scheme.get? pid = some process →
    pid < scheme.nextId ∧ process.pgid < scheme.nextId ∧ process.sid < scheme.nextId
  parent : ∀ pid process, scheme.get? pid = some process →
    (pid = initPid ∧ process.ppid = initPid) ∨
      (initPid < pid ∧ initPid ≤ process.ppid ∧ process.ppid < pid)
  group : ∀ grp group, scheme.groups.get? grp = some group →
    grp < scheme.nextId ∧ ∀ member ∈ group.processes, member < scheme.nextId

variable {scheme : ProcScheme} {pid : ProcessId} {scheme' : ProcScheme} {process : Process}

def Process.Numbered (process : Process) (nextId pid : ProcessId) : Prop :=
  (pid < nextId ∧ process.pgid < nextId ∧ process.sid < nextId) ∧
    ((pid = initPid ∧ process.ppid = initPid) ∨
      (initPid < pid ∧ initPid ≤ process.ppid ∧ process.ppid < pid))

def Pgrp.Numbered (group : Pgrp) (nextId grp : ProcessId) : Prop :=
  grp < nextId ∧ ∀ member ∈ group.processes, member < nextId

section

variable {nextId later grp : ProcessId} {group : Pgrp}

theorem Process.Numbered.mono (numbered : process.Numbered nextId pid) (larger : nextId ≤ later) :
    process.Numbered later pid := by
  obtain ⟨⟨below, group, session⟩, parent⟩ := numbered
  exact ⟨⟨below.trans_le larger, group.trans_le larger, session.trans_le larger⟩, parent⟩

theorem Pgrp.Numbered.mono (numbered : group.Numbered nextId grp) (larger : nextId ≤ later) :
    group.Numbered later grp :=
  ⟨numbered.1.trans_le larger, fun member listed => (numbered.2 member listed).trans_le larger⟩

theorem Pgrp.Numbered.append (numbered : group.Numbered nextId grp) (below : pid < nextId) :
    Pgrp.Numbered { group with processes := group.processes ++ [pid] } nextId grp := by
  refine ⟨numbered.1, ?_⟩
  intro member listed
  rcases mem_append.mp listed with listed | listed
  · exact numbered.2 member listed
  · rw [mem_singleton.mp listed]
    exact below

end

namespace ProcScheme

theorem fresh_of (start : 2 ≤ scheme.nextId)
    (each : ∀ pid process, scheme.get? pid = some process → process.Numbered scheme.nextId pid)
    (group : ∀ grp group, scheme.groups.get? grp = some group →
      group.Numbered scheme.nextId grp) : scheme.Fresh :=
  ⟨start, fun pid process found => (each pid process found).1,
    fun pid process found => (each pid process found).2, group⟩

section

variable (fresh : scheme.Fresh)

include fresh

theorem Fresh.numbered (found : scheme.get? pid = some process) :
    process.Numbered scheme.nextId pid :=
  ⟨fresh.process pid process found, fresh.parent pid process found⟩

theorem Fresh.dropMember {pgid grp : ProcessId} {group : Pgrp}
    (found : (dropMember scheme.groups pgid pid).get? grp = some group) :
    group.Numbered scheme.nextId grp := by
  obtain ⟨before, beforeFound, change⟩ := dropMember_found found
  rcases fresh.group grp before beforeFound with ⟨below, members⟩
  refine ⟨below, ?_⟩
  rcases change with ⟨-, rfl, -⟩ | ⟨-, rfl⟩
  · intro member listed
    exact members member (List.mem_of_mem_filter listed)
  · exact members

theorem Fresh.of_sameKin (groups : scheme'.groups = scheme.groups)
    (nextId : scheme.nextId ≤ scheme'.nextId)
    (processes : ∀ pid after, scheme'.get? pid = some after →
      ∃ before, scheme.get? pid = some before ∧ before.SameKin after) : scheme'.Fresh := by
  refine fresh_of (fresh.start.trans nextId) ?_ ?_
  · intro pid after found
    obtain ⟨before, beforeFound, kin⟩ := processes pid after found
    rw [Process.Numbered, kin.pgid, kin.sid, kin.ppid]
    exact (fresh.numbered beforeFound).mono nextId
  · intro grp group found
    rw [groups] at found
    exact Pgrp.Numbered.mono (fresh.group grp group found) nextId

theorem Fresh.reap (pid : ProcessId) : (scheme.reap pid).Fresh := by
  rcases reap_cases with same | ⟨process, reaped⟩
  · rw [same]
    exact fresh
  refine fresh_of ?_ ?_ ?_ <;> rw [reaped.nextId]
  · exact fresh.start
  · intro other after found
    exact fresh.numbered (reap_found found)
  · intro grp group found
    rw [reaped.groups] at found
    exact fresh.dropMember found

theorem Fresh.forked {parentPid parent}
    (found : scheme.get? parentPid = some parent) (thread : Thread) :
    (scheme.forked parentPid parent thread).Fresh := by
  have larger : scheme.nextId < (scheme.forked parentPid parent thread).nextId :=
    Nat.lt_succ_self _
  have start := fresh.start
  refine fresh_of (start.trans larger.le) ?_ ?_
  · intro pid process afterFound
    rw [get?_forked] at afterFound
    split at afterFound
    next equality =>
      cases afterFound
      subst equality
      obtain ⟨⟨below, group, session⟩, parent⟩ := fresh.numbered found
      refine ⟨⟨larger, group.trans larger, session.trans larger⟩, .inr ⟨start, ?_, below⟩⟩
      rcases parent with ⟨isInit, -⟩ | ⟨above, -, -⟩
      · exact isInit.ge
      · exact above.le
    · exact (fresh.numbered afterFound).mono larger.le
  · intro grp group afterFound
    rw [groups_forked] at afterFound
    split at afterFound
    · obtain ⟨before, beforeFound, rfl⟩ := map_eq_some_iff.mp afterFound
      exact (Pgrp.Numbered.mono (fresh.group grp before beforeFound) larger.le).append larger
    · exact Pgrp.Numbered.mono (fresh.group grp group afterFound) larger.le

theorem Fresh.regrouped {oldPgid newPgid} (found : scheme.get? pid = some process)
    (changes : oldPgid ≠ newPgid) (known : newPgid = pid ∨ scheme.groups.contains newPgid = true) :
    (scheme.regrouped pid oldPgid newPgid).Fresh := by
  have pidBelow := (fresh.process pid process found).1
  have newBelow : newPgid < scheme.nextId := by
    rcases known with rfl | there
    · exact pidBelow
    · obtain ⟨group, groupFound⟩ := isSome_iff_exists.mp there
      exact (fresh.group newPgid group groupFound).1
  refine fresh_of fresh.start ?_ ?_
  · intro other after afterFound
    rw [get?_regrouped] at afterFound
    split at afterFound
    · obtain ⟨before, beforeFound, rfl⟩ := map_eq_some_iff.mp afterFound
      obtain ⟨⟨below, -, session⟩, parent⟩ := fresh.numbered beforeFound
      exact ⟨⟨below, newBelow, session⟩, parent⟩
    · exact fresh.numbered afterFound
  · intro grp group afterFound
    rw [groups_regrouped changes] at afterFound
    split at afterFound
    next equality =>
      cases afterFound
      subst equality
      refine Pgrp.Numbered.append ⟨newBelow, ?_⟩ pidBelow
      cases groupFound : scheme.groups.get? grp with
      | none => simp
      | some before => exact (fresh.group grp before groupFound).2
    · exact fresh.dropMember afterFound

theorem Fresh.withInit (thread : Thread) (noProcess : ∀ pid, scheme.get? pid = none)
    (noGroup : ∀ grp, scheme.groups.get? grp = none) : (scheme.withInit thread).Fresh := by
  have start := fresh.start
  refine fresh_of start ?_ ?_
  · intro pid process found
    rcases withInit_found noProcess found with ⟨rfl, rfl⟩
    exact ⟨⟨start, start, start⟩, .inl ⟨rfl, rfl⟩⟩
  · intro grp group found
    simp only [ProcScheme.withInit, Table.get?_insert] at found
    split at found
    next equality =>
      cases found
      subst equality
      refine ⟨start, ?_⟩
      intro member listed
      rw [mem_singleton.mp listed]
      exact start
    · rw [noGroup] at found
      cases found

/-- Only the parent of the child changes, and init is older than any other process. -/
theorem Fresh.reparent
    (currentPid child : ProcessId) : (reparent currentPid scheme child).Fresh := by
  rcases groups_reparent scheme with ⟨groups, nextId⟩
  refine fresh_of (nextId ▸ fresh.start) ?_ ?_
  · intro other after afterFound
    rw [nextId]
    cases reparent_found afterFound with
    | same found => exact fresh.numbered found
    | adopter found _ =>
      have numbered := fresh.numbered found
      exact numbered
    | adopted notInit found =>
      obtain ⟨below, ⟨isInit, -⟩ | ⟨above, -, -⟩⟩ := fresh.numbered found
      · exact absurd isInit notInit
      · exact ⟨below, .inr ⟨above, le_rfl, above⟩⟩
  · rw [groups, nextId]
    exact fresh.group

end

end ProcScheme

variable {kind : Kind} {manager : Manager} {event : Event} {manager' : Manager} {child : ProcessId}
  {kernel : Kernel}

theorem Edit.fresh (edit : Edit policy kind first second) (small : kind.Small)
    (fresh : first.1.Fresh) : second.1.Fresh := by
  cases edit with
  | wait | complete => exact absurd small (by decide)
  | process found edit =>
    refine fresh.of_sameKin rfl le_rfl ?_
    intro other process afterFound
    rcases set_found afterFound with ⟨rfl, rfl⟩ | ⟨-, otherFound⟩
    · exact ⟨_, found, edit.sameKin⟩
    · exact ⟨process, otherFound, .refl process⟩
  | reap pid => exact fresh.reap pid
  | fork found _ thread => exact fresh.forked found thread
  | registerInit thread noProcess noGroup => exact fresh.withInit thread noProcess noGroup
  | regroup found _ changes allowed =>
    exact fresh.regrouped found changes (allowed.imp_right fun permitted => permitted.2.1)
  | @setSid scheme awoken pid process found leads alone =>
    obtain ⟨⟨below, group, -⟩, parent⟩ := fresh.numbered found
    refine fresh_of fresh.start ?_ fresh.group
    intro other after afterFound
    rcases set_found afterFound with ⟨rfl, rfl⟩ | ⟨-, otherFound⟩
    · exact ⟨⟨below, group, below⟩, parent⟩
    · exact fresh.numbered otherFound
  | reparent current child => exact fresh.reparent current child
  | handles => exact ⟨fresh.start, fresh.process, fresh.parent, fresh.group⟩
  | internal processes groups _ _ nextId _ =>
    refine fresh.of_sameKin groups nextId ?_
    intro pid process found
    rw [get?, processes] at found
    exact ⟨process, found, .refl process⟩

theorem fresh_start : Manager.start.scheme.Fresh := by
  refine fresh_of le_rfl ?_ ?_
  · intro pid process found
    cases (Table.get?_empty).symm.trans found
  · intro grp group found
    cases (Table.get?_empty).symm.trans found

theorem Manager.fresh (reached : procmgr.Reachable manager) : manager.scheme.Fresh := by
  refine scheme_invariant fresh_start ?_ (freely reached)
  intro kind _ before after edit small fresh
  exact edit.fresh small fresh

theorem Edits.counters_le (edits : Edits policy kinds first second) :
    first.1.nextId ≤ second.1.nextId ∧ first.1.nextInternalId ≤ second.1.nextInternalId := by
  apply edits.preserveSmall
  case initially => exact ⟨le_rfl, le_rfl⟩
  intro kind _ before after edit small larger
  cases edit with
  | wait | complete => exact absurd small (by decide)
  | fork => exact ⟨larger.1.trans (Nat.le_succ _), larger.2⟩
  | internal _ _ _ _ nextId nextInternalId =>
    exact ⟨larger.1.trans nextId, larger.2.trans nextInternalId⟩
  | reap pid =>
    obtain ⟨_, _, frame⟩ := reap_frame
    rwa [frame]
  | reparent current child =>
    obtain ⟨_, frame⟩ := reparent_frame
    rwa [frame]
  | process | registerInit | regroup | setSid | handles => exact larger

/-- What a small edit does to one process that is still there afterwards, and
the requests of that process that wake up. -/
inductive Evolves (policy : Policy) (kind : Kind) (scheme : ProcScheme) (pid : ProcessId) :
    Process → Process → List VirtualId → Prop where
  | same (process : Process) : Evolves policy kind scheme pid process process []
  | edit {before after : Process} {added : List VirtualId}
      (edit : ProcEdit policy scheme pid kind before after added) :
      Evolves policy kind scheme pid before after added
  | regrouped (process : Process) (newPgid : ProcessId) :
      Evolves policy kind scheme pid process { process with pgid := newPgid } []
  | session (process : Process) :
      Evolves policy kind scheme pid process { process with sid := pid } []
  | adopted (process : Process) (notInit : pid ≠ initPid) :
      Evolves policy kind scheme pid process
        { process with ppid := initPid, waitpid := .empty } []
  | adopts (process : Process) (waitpid : WaitpidMap) :
      Evolves policy kind scheme pid process
        { process with waitpid := process.waitpid.append WaitpidKey.cmp waitpid } []

theorem Edit.evolves (edit : Edit policy kind first second) (small : kind.Small)
    (registered : kind ≠ .registerInit) (used : pid < first.1.nextId ∨ kind ≠ .fork)
    (found : second.1.get? pid = some process) :
    ∃ before added, first.1.get? pid = some before ∧
      Evolves policy kind first.1 pid before process added ∧ added ⊆ second.2 := by
  -- It is as it was, or nothing of it wakes up.
  have quiet {before : Process} (evolves : Evolves policy kind first.1 pid before process [])
      (found : first.1.get? pid = some before) : ∃ before added,
        first.1.get? pid = some before ∧ Evolves policy kind first.1 pid before process added ∧
          added ⊆ second.2 := ⟨before, [], found, evolves, nil_subset _⟩
  cases edit with
  | wait | complete => exact absurd small (by decide)
  | registerInit => exact absurd rfl registered
  | process beforeFound edit =>
    rcases set_found found with ⟨rfl, rfl⟩ | ⟨-, otherFound⟩
    · exact ⟨_, _, beforeFound, .edit edit, subset_append_right _ _⟩
    · exact quiet (.same _) otherFound
  | setSid beforeFound _ _ =>
    rcases set_found found with ⟨rfl, rfl⟩ | ⟨-, otherFound⟩
    · exact quiet (.session _) beforeFound
    · exact quiet (.same _) otherFound
  | fork =>
    have old := (used.resolve_right (by simp)).ne
    rw [get?_forked, if_neg old] at found
    exact quiet (.same _) found
  | regroup =>
    rw [get?_regrouped] at found
    split at found
    · obtain ⟨old, oldFound, rfl⟩ := map_eq_some_iff.mp found
      exact quiet (.regrouped old _) oldFound
    · exact quiet (.same _) found
  | reap => exact quiet (.same _) (reap_found found)
  | reparent current child =>
    cases reparent_found found with
    | same oldFound => exact quiet (.same _) oldFound
    | adopter oldFound _ => exact quiet (.adopts _ _) oldFound
    | adopted notInit oldFound => exact quiet (.adopted _ notInit) oldFound
  | handles => exact quiet (.same _) found
  | internal processes _ _ _ _ _ =>
    rw [get?, processes] at found
    exact quiet (.same _) found

theorem Edits.absent (edits : Edits policy kinds first second)
    (registered : Kind.registerInit ∉ kinds.flatMap Kind.expand)
    (used : pid < first.1.nextId ∨ Kind.fork ∉ kinds.flatMap Kind.expand)
    (missing : first.1.get? pid = none) : second.1.get? pid = none := by
  refine (edits.preserveSmall (motive := fun state =>
    (pid < state.1.nextId ∨ Kind.fork ∉ kinds.flatMap Kind.expand) ∧
      state.1.get? pid = none) ?_ ⟨used, missing⟩).2
  rintro kind allowed before after edit small ⟨used, missing⟩
  refine ⟨used.imp_left fun used => used.trans_le edit.single.counters_le.1, ?_⟩
  cases found : after.1.get? pid with
  | none => rfl
  | some process =>
    -- It would have been there before.
    obtain ⟨old, -, oldFound, -⟩ := edit.evolves small
      (fun equality => registered (equality ▸ allowed))
      (used.imp_right fun noFork equality => noFork (equality ▸ allowed)) found
    cases missing.symm.trans oldFound

theorem Edit.forallProcess {motive : ProcessId → Process → Prop}
    (edit : Edit policy kind first second) (small : kind.Small)
    (registered : ∀ thread, motive initPid (initProcess thread))
    (forked : ∀ parent parentPid childPid thread,
      motive childPid (forkedProcess parent parentPid childPid thread))
    (evolved : ∀ pid before after added, Evolves policy kind first.1 pid before after added →
      motive pid before → motive pid after)
    (holds : ∀ pid process, first.1.get? pid = some process → motive pid process)
    (pid : ProcessId) {process} (found : second.1.get? pid = some process) :
    motive pid process := by
  by_cases registers : kind = .registerInit
  · subst registers
    cases edit with
    | registerInit thread noProcess _ =>
      obtain ⟨rfl, rfl⟩ := withInit_found noProcess found
      exact registered thread
    | process _ edit => cases edit
  by_cases forks : kind = .fork
  · subst forks
    cases edit with
    | fork =>
      rw [get?_forked] at found
      split at found
      next equality =>
        cases found
        exact equality ▸ forked _ _ _ _
      · exact holds pid process found
    | process _ edit => cases edit
  · obtain ⟨before, added, beforeFound, evolves, -⟩ :=
      edit.evolves small registers (.inr forks) found
    exact evolved pid before process added evolves (holds pid before beforeFound)

section

variable (edits : Edits policy kinds first second)

include edits

theorem Edits.queue_subset : first.2 ⊆ second.2 := by
  apply edits.preserveSmall
  case initially => exact List.Subset.refl _
  intro kind _ before after edit small inside
  cases edit with
  | wait | complete => exact absurd small (by decide)
  | process => exact fun id member => mem_append_left _ (inside member)
  | _ => exact inside

theorem Edits.preserveQueued {motive : List VirtualId → Process → Prop}
    (registered : Kind.registerInit ∉ kinds.flatMap Kind.expand) (used : pid < first.1.nextId)
    (longer : ∀ queue queue' process, queue ⊆ queue' → motive queue process → motive queue' process)
    (preserved : ∀ kind ∈ kinds.flatMap Kind.expand, ∀ scheme before after added queue,
      Evolves policy kind scheme pid before after added → added ⊆ queue →
      motive queue before → motive queue after)
    (initially : ∀ process, first.1.get? pid = some process → motive first.2 process) :
    ∀ process, second.1.get? pid = some process → motive second.2 process := by
  refine (edits.preserveSmall (motive := fun state => pid < state.1.nextId ∧
    ∀ process, state.1.get? pid = some process → motive state.2 process) ?_
    ⟨used, initially⟩).2
  intro kind allowed before after edit small holds
  refine ⟨holds.1.trans_le edit.single.counters_le.1, ?_⟩
  intro process found
  have notRegister : kind ≠ .registerInit := fun equality => registered (equality ▸ allowed)
  obtain ⟨old, added, oldFound, evolves, woken⟩ :=
    edit.evolves small notRegister (.inl holds.1) found
  exact preserved kind allowed before.1 old process added after.2 evolves woken
    (longer _ _ old edit.single.queue_subset (holds.2 old oldFound))

theorem Edits.preserveProcess {motive : Process → Prop}
    (registered : Kind.registerInit ∉ kinds.flatMap Kind.expand) (used : pid < first.1.nextId)
    (preserved : ∀ kind ∈ kinds.flatMap Kind.expand, ∀ scheme before after added,
      Evolves policy kind scheme pid before after added → motive before → motive after)
    (initially : ∀ process, first.1.get? pid = some process → motive process) :
    ∀ process, second.1.get? pid = some process → motive process :=
  edits.preserveQueued (motive := fun _ process => motive process) registered used
    (fun _ _ _ _ holds => holds)
    (fun kind allowed scheme before after added _ evolves _ =>
      preserved kind allowed scheme before after added evolves)
    initially

end

namespace Manager

structure Known (manager : Manager) (pid : ProcessId) : Prop where
  registered : ¬ manager.scheme.Unregistered
  used : pid < manager.scheme.nextId

theorem Known.step {output} (known : manager.Known pid) (reached : procmgr.Reachable manager)
    (stepped : manager.step event = some (manager', output)) :
    manager'.Known pid ∧ (manager.scheme.get? pid = none → manager'.scheme.get? pid = none) := by
  obtain ⟨awoken, edits, -⟩ :=
    later_edits known.registered Policy.free_allows stepped
  refine ⟨⟨?_, known.used.trans_le edits.counters_le.1⟩, ?_⟩
  · exact fun unregistered => known.registered
      ((registration_step (registration reached) stepped).back unregistered)
  · exact edits.absent registerInit_not_later (.inl known.used)

theorem known_of_found (reached : procmgr.Reachable manager)
    (found : manager.scheme.get? pid = some process) : manager.Known pid := by
  refine ⟨fun unregistered => ?_, ((Manager.fresh reached).process pid process found).1⟩
  have nobody := ((registration reached).pristine unregistered).blank.1 pid
  cases nobody.symm.trans found

end Manager

/-- What `fork` adds is a child of the process of the handle. -/
theorem fork_found (found : (scheme.fork kernel pid).1.get? child = some process)
    (missing : scheme.get? child = none) :
    ∃ parent thread, scheme.get? pid = some parent ∧
      process = forkedProcess parent pid child thread := by
  simp only [fork] at found
  split at found
  · cases missing.symm.trans found
  next parent parentFound =>
  split at found
  · cases missing.symm.trans found
  next fd _ =>
  have lookup := scheme.get?_forked pid parent ⟨scheme.nextRc, fd, scheme.nextId, none⟩ child
  replace found := lookup.symm.trans found
  split at found
  next equality =>
    subst equality
    exact ⟨parent, _, parentFound, (some.inj found).symm⟩
  · cases missing.symm.trans found

/-- What a `dup` adds is a child of the process of the handle. -/
theorem onDup_found {fd buf result} (done : scheme.onDup kernel fd buf = some (scheme', result))
    (missing : scheme.get? child = none) (found : scheme'.get? child = some process) :
    ∃ parentPid parent thread, scheme.get? parentPid = some parent ∧
      process = forkedProcess parent parentPid child thread := by
  have unchanged : scheme.get? child ≠ some process := by
    rw [missing]
    simp
  unfold onDup at done
  split at done
  · cases done
  next pid _ =>
    rw [some.injEq] at done
    obtain ⟨made, source, result⟩ := onDupProc_cases kernel pid buf
    rw [done] at result
    have present : made.get? child = some process := by
      rcases result with rfl | ⟨_, _, rfl⟩
      · exact found
      · exact found
    rcases source with rfl | ⟨_, rfl⟩ | ⟨_, rfl⟩
    · exact absurd present unchanged
    · obtain ⟨parent, thread, parentFound, same⟩ := fork_found present missing
      exact ⟨pid, parent, thread, parentFound, same⟩
    · have edits : Edits .free _ (scheme, []) ((scheme.newThread kernel pid).1, []) :=
        newThread_edits fun _ _ => trivial
      cases (edits.absent (by decide) (.inr (by decide)) missing).symm.trans present
  · split at done
    · cases done
      exact absurd found unchanged
    · cases done
      exact absurd found unchanged
  · cases done
    exact absurd found unchanged

theorem Manager.spawned {output} (registered : ¬ manager.scheme.Unregistered)
    (stepped : manager.step event = some (manager', output))
    (missing : manager.scheme.get? child = none)
    (found : manager'.scheme.get? child = some process) :
    ∃ parent thread, manager.scheme.get? process.ppid = some parent ∧
      process = forkedProcess parent process.ppid child thread := by
  by_cases forks : Kind.fork ∈ (laterKinds event).flatMap Kind.expand
  · obtain ⟨requestId, fd, buf, kernel, rfl⟩ := dup_of_fork forks
    obtain ⟨_, ⟨scheme', result⟩, made, done⟩ :=
      (of_step_request stepped).imp_right map_eq_some_iff.mp
    cases done
    obtain ⟨parentPid, parent, thread, parentFound, same⟩ := onDup_found made missing found
    have samePid : process.ppid = parentPid := by rw [same]; rfl
    rw [samePid]
    exact ⟨parent, thread, parentFound, same⟩
  · obtain ⟨awoken, edits, -⟩ :=
      later_edits registered Policy.free_allows stepped
    rw [edits.absent registerInit_not_later (.inr forks) missing] at found
    cases found

end EosBase.Procmgr
