import EosBase.Procmgr.Groups

/-!
# Sessions

`on_setsid` refuses to start a session while another process is in the group
that would be named after the caller.  `on_setpgid` has no check of this kind:
it accepts any group that exists, whatever session its members are in.  A group
stays within one session as long as no such call is made.
-/

namespace EosBase.Procmgr

open Scenario Function

/-- Groups do not span sessions, and the leader of a session leads its group. -/
structure ProcScheme.SessionsApart (scheme : ProcScheme) : Prop where
  together : ∀ first second firstProc secondProc, scheme.get? first = some firstProc →
    scheme.get? second = some secondProc → firstProc.pgid = secondProc.pgid →
    firstProc.sid = secondProc.sid
  leader : ∀ pid process, scheme.get? pid = some process → process.sid = pid →
    process.pgid = pid

/-- The members of a group are in the session of the process it is named
after, as long as that process lives. -/
structure ProcScheme.Sessions (scheme : ProcScheme) : Prop extends scheme.SessionsApart where
  namesake : ∀ pid other process member, scheme.get? pid = some process →
    scheme.get? other = some member → member.pgid = pid → member.sid = process.sid

/-- Every process is in the session that `sessionOf` gives to its group and to
the group named after it. -/
def ProcScheme.Assigned (scheme : ProcScheme) (sessionOf : ProcessId → ProcessId) : Prop :=
  ∀ pid process, scheme.get? pid = some process →
    process.sid = sessionOf process.pgid ∧ process.sid = sessionOf pid ∧
      (process.sid = pid → process.pgid = pid)

def ProcScheme.SameSession (scheme : ProcScheme) (pid pgid : ProcessId) : Prop :=
  ∀ process, scheme.get? pid = some process → ∀ other member,
    scheme.get? other = some member → member.pgid = pgid → member.sid = process.sid

variable {pid : ProcessId} {sessionOf : ProcessId → ProcessId} {scheme scheme' : ProcScheme}

theorem ProcScheme.SameSession.of_alike {before after : ProcScheme} (alike : before.Alike after)
    {pgid} (same : before.SameSession pid pgid) : after.SameSession pid pgid := by
  intro process found other member memberFound inGroup
  obtain ⟨oldProcess, oldFound, processAlike⟩ := alike.symm.found found
  obtain ⟨oldMember, oldMemberFound, memberAlike⟩ := alike.symm.found memberFound
  rw [← processAlike.kin.sid, ← memberAlike.kin.sid]
  exact same oldProcess oldFound other oldMember oldMemberFound (memberAlike.kin.pgid.trans inGroup)

abbrev sessionPolicy : Policy :=
  { Policy.free with
    regroup := ProcScheme.SameSession
    regroup_alike := fun alike _ _ same => same.of_alike alike }

namespace ProcScheme

section

variable (assigned : scheme.Assigned sessionOf)

include assigned

theorem Assigned.sessions : scheme.Sessions := by
  refine ⟨⟨?_, ?_⟩, ?_⟩
  · intro first second firstProc secondProc firstFound secondFound together
    rw [(assigned first firstProc firstFound).1, together]
    exact (assigned second secondProc secondFound).1.symm
  · intro pid process found
    exact (assigned pid process found).2.2
  · intro pid other process member found memberFound inGroup
    rw [(assigned other member memberFound).1, inGroup]
    exact (assigned pid process found).2.1.symm

theorem Assigned.of_fewer (fewer : ∀ pid after, scheme'.get? pid = some after → ∃ before,
      scheme.get? pid = some before ∧ after.pgid = before.pgid ∧ after.sid = before.sid) :
    scheme'.Assigned sessionOf := by
  intro pid after afterFound
  obtain ⟨before, found, pgid, sid⟩ := fewer pid after afterFound
  rw [pgid, sid]
  exact assigned pid before found

theorem Assigned.set {before after} (found : scheme.get? pid = some before)
    (kin : before.SameKin after) : (scheme.set pid after).Assigned sessionOf := by
  refine assigned.of_fewer ?_
  intro other process afterFound
  rcases set_found afterFound with ⟨rfl, rfl⟩ | ⟨-, otherFound⟩
  · exact ⟨before, found, kin.pgid, kin.sid⟩
  · exact ⟨process, otherFound, rfl, rfl⟩

theorem Assigned.reap (pid : ProcessId) : (scheme.reap pid).Assigned sessionOf := by
  refine assigned.of_fewer ?_
  intro other after afterFound
  exact ⟨after, reap_found afterFound, rfl, rfl⟩

theorem Assigned.reparent (currentPid child : ProcessId) :
    (reparent currentPid scheme child).Assigned sessionOf := by
  refine assigned.of_fewer ?_
  intro other after afterFound
  cases reparent_found afterFound with
  | same found => exact ⟨after, found, rfl, rfl⟩
  | adopter found | adopted _ found => exact ⟨_, found, rfl, rfl⟩

/-- No group is named after the new process yet. -/
theorem Assigned.forked (fresh : scheme.Fresh) {parentPid parent}
    (found : scheme.get? parentPid = some parent) (thread : Thread) :
    (scheme.forked parentPid parent thread).Assigned
      (update sessionOf scheme.nextId parent.sid) := by
  intro pid process afterFound
  rw [get?_forked] at afterFound
  split at afterFound
  next equality =>
    cases afterFound
    obtain ⟨-, pgidBelow, sidBelow⟩ := fresh.process parentPid parent found
    rw [equality, update_self]
    refine ⟨?_, rfl, fun leads => absurd leads sidBelow.ne⟩
    exact (assigned parentPid parent found).1.trans (update_of_ne pgidBelow.ne ..).symm
  next different =>
    obtain ⟨-, pgidBelow, -⟩ := fresh.process pid process afterFound
    rw [update_of_ne different, update_of_ne pgidBelow.ne]
    exact assigned pid process afterFound

theorem Assigned.setSid {process} (found : scheme.get? pid = some process)
    (leads : process.pgid = pid)
    (alone : ∀ other member, scheme.get? other = some member → member.pgid = pid → other = pid) :
    (scheme.set pid { process with sid := pid }).Assigned (update sessionOf pid pid) := by
  intro other member memberFound
  rcases set_found memberFound with ⟨rfl, rfl⟩ | ⟨different, old⟩
  · simp [leads]
  · have outside : member.pgid ≠ pid := fun inGroup => different (alone other member old inGroup)
    rw [update_of_ne different, update_of_ne outside]
    exact assigned other member old

theorem Assigned.regrouped {process} (grouped : scheme.Grouped)
    {newPgid} (found : scheme.get? pid = some process)
    (allowed : newPgid = pid ∨ (process.sid ≠ pid ∧ scheme.groups.contains newPgid = true ∧
        scheme.SameSession pid newPgid)) :
    (scheme.regrouped pid process.pgid newPgid).Assigned sessionOf := by
  obtain ⟨-, own, -⟩ := assigned pid process found
  -- A group that exists has a member, which is in the session.
  have joined : process.sid = sessionOf newPgid := by
    rcases allowed with rfl | ⟨-, there, same⟩
    · exact own
    obtain ⟨group, groupFound⟩ := Option.isSome_iff_exists.mp there
    obtain ⟨other, listed⟩ := List.exists_mem_of_ne_nil _ (grouped.nonempty _ group groupFound)
    rw [← membersOf_eq groupFound] at listed
    obtain ⟨member, memberFound, inGroup⟩ := grouped.member newPgid other listed
    rw [← same process found other member memberFound inGroup, ← inGroup]
    exact (assigned other member memberFound).1
  intro other after afterFound
  rw [get?_regrouped] at afterFound
  split at afterFound
  next equality =>
    subst equality
    rw [found] at afterFound
    cases afterFound
    refine ⟨joined, own, ?_⟩
    intro leads
    rcases allowed with own | ⟨notLeader, -, -⟩
    · exact own
    · exact absurd leads notLeader
  · exact assigned other after afterFound

end

theorem Assigned.withInit (thread : Thread) (noProcess : ∀ pid, scheme.get? pid = none) :
    (scheme.withInit thread).Assigned fun _ => initPid := by
  intro pid process found
  rcases withInit_found noProcess found with ⟨rfl, rfl⟩
  exact ⟨rfl, rfl, fun _ => rfl⟩

end ProcScheme

theorem Edit.assigned {kind first second}
    (edit : Edit sessionPolicy kind first second) (small : kind.Small)
    (fresh : first.1.Fresh) (grouped : first.1.Grouped)
    (assigned : first.1.Assigned sessionOf) : ∃ sessionOf, second.1.Assigned sessionOf := by
  cases edit with
  | wait | complete => exact absurd small (by decide)
  | process found edit => exact ⟨_, assigned.set found edit.sameKin⟩
  | reap pid => exact ⟨_, assigned.reap pid⟩
  | fork found _ thread => exact ⟨_, assigned.forked fresh found thread⟩
  | registerInit thread noProcess _ => exact ⟨_, .withInit thread noProcess⟩
  | regroup found _ _ allowed => exact ⟨_, assigned.regrouped grouped found allowed⟩
  | setSid found leads alone => exact ⟨_, assigned.setSid found leads alone⟩
  | reparent current child => exact ⟨_, assigned.reparent current child⟩
  | handles => exact ⟨_, assigned⟩
  | internal processes _ _ _ _ _ =>
    refine ⟨_, assigned.of_fewer ?_⟩
    intro pid process found
    rw [ProcScheme.get?, processes] at found
    exact ⟨process, found, rfl, rfl⟩

theorem assigned_start : Manager.start.scheme.Assigned id := by
  intro pid process found
  cases (Table.get?_empty).symm.trans found

/-- As long as every `setpgid` names a group of the session of its target,
groups do not span sessions. -/
theorem sessions_apart {manager : Manager}
    (reached : procmgr.ReachableWhile sessionPolicy.Allows manager) :
    manager.scheme.SessionsApart := by
  have holds := Manager.scheme_invariant (motive := fun scheme => scheme.Fresh ∧ scheme.Grouped ∧
      ∃ sessionOf, scheme.Assigned sessionOf)
    ⟨fresh_start, grouped_start, id, assigned_start⟩ ?_ reached
  · obtain ⟨-, -, sessionOf, assigned⟩ := holds
    exact assigned.sessions.toSessionsApart
  · rintro kind - before after edit small ⟨fresh, grouped, sessionOf, assigned⟩
    exact ⟨edit.fresh small fresh, edit.grouped small fresh grouped,
      edit.assigned small fresh grouped assigned⟩

instance (scheme : ProcScheme) (pid pgid : ProcessId) : Decidable (scheme.SameSession pid pgid) :=
  inferInstanceAs (Decidable (∀ process ∈ scheme.get? pid, ∀ other member,
    scheme.processes.get? other = some member → member.pgid = pgid → member.sid = process.sid))

/-- Two children of init start a job in one group, and a third starts a
session. -/
def jobsRun : List Event :=
  boot ++ [fork 1 2 102, fork 1 3 103, fork 1 4 104,
    call 5 2 .setpgid 0 0, call 6 3 .setpgid 0 2, call 7 4 .setsid 0 0]

theorem sessions_apart_jobs : ∃ manager, procmgr.ReachableWhile sessionPolicy.Allows manager ∧
    ((manager.scheme.get? 3).map fun process => (process.pgid, process.sid)) = some (2, 1) ∧
    ((manager.scheme.get? 4).map fun process => (process.pgid, process.sid)) = some (4, 4) ∧
    manager.scheme.SessionsApart := by
  have reached := procmgr.reachableWhile_replay sessionPolicy.Allows jobsRun rfl
  exact ⟨_, reached, rfl, rfl, sessions_apart reached⟩

/-- A child of init forks, the grandchild starts a session, and the child joins
the group of the grandchild. -/
def spanRun : List Event :=
  boot ++ [fork 1 2 102, fork 2 3 103, call 5 3 .setsid 0 0, call 6 2 .setpgid 0 3]

theorem group_spans_sessions :
    ∃ manager, procmgr.Reachable manager ∧ ¬ manager.scheme.SessionsApart := by
  have reached := procmgr.reachable_replay spanRun rfl
  refine ⟨_, reached, ?_⟩
  intro apart
  have same := apart.together 2 3 _ _ rfl rfl rfl
  exact absurd same (by decide)

end EosBase.Procmgr
