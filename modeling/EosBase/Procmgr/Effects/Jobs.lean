import EosBase.Procmgr.Edits

/-!
# The edits of calls on one process

Registration, forks, threads, groups, sessions and credentials.
-/

namespace EosBase.Procmgr.ProcScheme

open List

variable {policy : Policy} {awoken : List VirtualId} {kernel : Kernel} {scheme : ProcScheme}
  {pid : ProcessId} {callerPid targetPid : ProcessId} {before after : ProcScheme}
  {process : Process} {newPgid : ProcessId}

theorem onSyncSigtctl_edits {thread} :
    Edits policy [.page] (scheme, awoken) ((scheme.onSyncSigtctl kernel thread).1, awoken) := by
  unfold onSyncSigtctl
  split
  · exact .refl _
  refine modify_edits (by decide : Kind.page ∈ _) ?_
  intro process _
  refine .page (.edit ?_ (.inl rfl)) rfl
  simp only [map_map]
  apply map_congr_left
  intro candidate _
  simp only [Function.comp_apply]
  split <;> rfl

/-- A write to fields that only signal delivery, `ps` and the scheduler read. -/
theorem page_edits {before after} (found : scheme.get? pid = some before)
    (touched : before.Touched after) (status : after.status = before.status) :
    Edits policy [.page] (scheme, awoken) (scheme.set pid after, awoken) :=
  set_edits found (.page touched status) (by decide)

theorem onSyncSigpctl_edits :
    Edits policy [.page] (scheme, awoken) ((scheme.onSyncSigpctl kernel pid).1, awoken) := by
  unfold onSyncSigpctl
  split
  · exact .refl _
  next process found =>
  split
  · exact .refl _
  split
  · exact .refl _
  · exact page_edits found (.edit rfl (.inl rfl)) rfl

theorem onSigdeq_edits (pid : ProcessId) (payload : List UInt8) :
    Edits policy [.page] (scheme, awoken) ((scheme.onSigdeq pid payload).1, awoken) := by
  unfold onSigdeq
  split
  · exact .refl _
  split
  · exact .refl _
  split
  · exact .refl _
  split
  · exact .refl _
  next process found =>
  split
  · exact .refl _
  split
  · exact .refl _
  · exact .refl _
  · exact page_edits found (.edit rfl (.inl rfl)) rfl

theorem onProcRename_edits {raw} :
    Ends (fun renamed => Edits policy [.page] (scheme, awoken) (renamed.1, awoken))
      (scheme.onProcRename pid raw) := by
  simp only [onProcRename]
  split
  · split
    · exact .refl _
    next process found =>
    split
    · split
      · trivial
      · exact page_edits found (.edit rfl (.inl rfl)) rfl
    · exact page_edits found (.edit rfl (.inl rfl)) rfl
  · exact .refl _

theorem onSetprocprio_edits {newPrio} : Edits policy [.page] (scheme, awoken)
      ((scheme.onSetprocprio callerPid targetPid newPrio).1, awoken) := by
  unfold onSetprocprio
  split
  · exact .refl _
  split
  · exact .refl _
  split
  · exact .refl _
  next target found =>
  split
  · exact .refl _
  · exact page_edits found (.edit rfl (.inl rfl)) rfl

theorem onDisableSetpgid_edits :
    Edits policy [.page] (scheme, awoken) ((scheme.onDisableSetpgid pid).1, awoken) := by
  unfold onDisableSetpgid
  split
  · exact .refl _
  next process found =>
  exact page_edits found (.edit rfl (.inl rfl)) rfl

theorem internal_edits {kinds scheme'} (allowed : Kind.internal ∈ kinds)
    (processes : scheme'.processes = scheme.processes) (groups : scheme'.groups = scheme.groups)
    (handles : scheme'.handles = scheme.handles)
    (initClaimed : scheme'.initClaimed = scheme.initClaimed)
    (nextId : scheme.nextId ≤ scheme'.nextId)
    (nextInternalId : scheme.nextInternalId ≤ scheme'.nextInternalId) :
    Edits policy kinds (scheme, awoken) (scheme', awoken) :=
  .single (.internal processes groups handles initClaimed nextId nextInternalId) allowed

theorem onSendfd_edits {id} (blank : scheme.handles.get? id = some .init →
      (∀ pid, scheme.get? pid = none) ∧ ∀ grp, scheme.groups.get? grp = none) :
    Ends (fun sent => Edits policy [.registerInit, .handles, .internal] (scheme, awoken)
      (sent.1, awoken)) (scheme.onSendfd kernel id) := by
  unfold onSendfd
  split
  · trivial
  next pending =>
    rcases blank pending with ⟨noProcess, noGroup⟩
    split
    · exact .refl _
    next fd _ =>
    refine Edits.trans (.single
      (.registerInit ⟨scheme.nextRc, fd, initPid, none⟩ noProcess noGroup) (by decide)) ?_
    refine Edits.trans (.single (.handles (scheme.handles.insert id (.proc initPid))
      scheme.initClaimed) (by decide)) ?_
    exact internal_edits (by decide) rfl rfl rfl rfl le_rfl le_rfl
  · exact .refl _

theorem fork_edits {parentPid}
    (allowed : ∀ parent, scheme.get? parentPid = some parent → policy.fork parentPid parent) :
    Edits policy [.fork, .internal] (scheme, awoken)
      ((scheme.fork kernel parentPid).1, awoken) := by
  simp only [fork]
  split
  · exact internal_edits (by decide) rfl rfl rfl rfl (Nat.le_succ _) le_rfl
  next parent found =>
  split
  · exact internal_edits (by decide) rfl rfl rfl rfl (Nat.le_succ _) le_rfl
  next fd _ =>
  refine Edits.trans (.single (.fork found (allowed parent found)
    ⟨scheme.nextRc, fd, scheme.nextId, none⟩) (by decide)) ?_
  exact internal_edits (by decide) rfl rfl rfl rfl le_rfl le_rfl

theorem newThread_edits
    (allowed : ∀ process, scheme.get? pid = some process → policy.newThread process) :
    Edits policy [.newThread, .internal] (scheme, awoken)
      ((scheme.newThread kernel pid).1, awoken) := by
  simp only [newThread]
  split
  · exact .refl _
  next process found =>
  split
  · exact .refl _
  next fd _ =>
  refine Edits.trans (set_edits found
    (.newThread ⟨scheme.nextRc, fd, pid, none⟩ (allowed process found)) (by decide)) ?_
  exact internal_edits (by decide) rfl rfl rfl rfl le_rfl le_rfl

theorem wakeParent_edits {kinds} (parent : Option ProcessId) (allowed : Kind.drain ∈ kinds) :
    Edits policy kinds (scheme, awoken) (scheme.wakeParent parent awoken) := by
  unfold wakeParent
  split
  · exact .refl _
  split
  · exact .refl _
  next found => exact .process found .drain allowed

theorem wakeParent_alike (scheme : ProcScheme) (parent : Option ProcessId)
    (awoken : List VirtualId) : scheme.Alike (scheme.wakeParent parent awoken).1 := by
  unfold wakeParent
  split
  · exact .refl _
  split
  · exact .refl _
  next found => exact .set found ⟨⟨rfl, rfl, rfl⟩, rfl, rfl⟩

theorem groups_wakeParent {parent} :
    (scheme.wakeParent parent awoken).1.groups = scheme.groups := by
  unfold wakeParent
  split
  · rfl
  split <;> rfl

section

variable (alike : before.Alike after)

include alike

theorem Alike.found (found : before.get? pid = some process) :
    ∃ process', after.get? pid = some process' ∧ process.Alike process' := by
  have related := alike pid
  rw [found] at related
  cases same : after.get? pid with
  | none =>
    rw [same] at related
    cases related
  | some process' =>
    rw [same] at related
    cases related with
    | some related => exact ⟨process', rfl, related⟩

theorem Alike.isSome (pid : ProcessId) : (after.get? pid).isSome = (before.get? pid).isSome := by
  have related := alike pid
  generalize before.get? pid = old at related
  generalize after.get? pid = new at related
  cases related with
  | none => rfl
  | some => rfl

theorem Alike.symm : after.Alike before := by
  intro pid
  have related := alike pid
  generalize before.get? pid = first at related ⊢
  generalize after.get? pid = second at related ⊢
  cases related with
  | none => exact .none
  | some related =>
    exact .some ⟨⟨related.kin.ppid.symm, related.kin.pgid.symm, related.kin.sid.symm⟩,
      related.waitpid.symm, related.exit?.symm⟩

end

/-- `set_pgid` wakes the waiters of the parent even when it fails. -/
theorem setPgid_edits (parent : Option ProcessId) (found : scheme.get? pid = some process)
    (changes : process.pgid ≠ newPgid) (allowed : newPgid = pid ∨
      (process.sid ≠ pid ∧ scheme.groups.contains newPgid = true ∧
        policy.regroup scheme pid newPgid)) :
    let moved := scheme.setPgid pid process parent newPgid awoken
    Edits policy [.drain, .regroup] (scheme, awoken) (moved.scheme, moved.awoken) := by
  intro moved
  have woken : Edits policy [.drain, .regroup] (scheme, awoken) _ :=
    wakeParent_edits parent (by decide)
  simp only [moved, setPgid]
  split
  · exact woken
  next oldGroup oldFound =>
  have alike := scheme.wakeParent_alike parent awoken
  obtain ⟨after, afterFound, same⟩ := alike.found found
  have stillAllowed : newPgid = pid ∨ (after.sid ≠ pid ∧
      (scheme.wakeParent parent awoken).1.groups.contains newPgid = true ∧
      policy.regroup (scheme.wakeParent parent awoken).1 pid newPgid) := by
    rw [same.kin.sid, groups_wakeParent]
    exact allowed.imp_right fun ⟨notLeader, there, permitted⟩ =>
      ⟨notLeader, there, policy.regroup_alike alike pid newPgid permitted⟩
  rw [← same.kin.pgid] at oldFound changes ⊢
  exact woken.trans (.single (.regroup afterFound oldFound changes stillAllowed) (by decide))

/-- What the checks of `on_setpgid` leave over. -/
theorem setpgidChecks_ok (found : scheme.get? targetPid = some process)
    (checks : scheme.setpgidChecks callerPid targetPid newPgid = .ok true) :
    process.pgid ≠ newPgid ∧ process.sid ≠ targetPid ∧
      (newPgid = targetPid ∨ scheme.groups.contains newPgid = true) := by
  simp only [setpgidChecks, found] at checks
  repeat' split at checks
  all_goals simp_all
  all_goals tauto

theorem onSetpgid_edits (allowed : scheme.setpgidChecks callerPid targetPid newPgid = .ok true →
      newPgid = targetPid ∨ policy.regroup scheme targetPid newPgid) :
    let done := scheme.onSetpgid callerPid targetPid newPgid awoken
    Edits policy [.drain, .regroup] (scheme, awoken) (done.scheme, done.awoken) := by
  intro done
  simp only [done, onSetpgid]
  split
  · exact .refl _
  · exact .refl _
  next checks =>
  split
  · exact .refl _
  next process found =>
  rcases setpgidChecks_ok found checks with ⟨changes, notLeader, named⟩
  refine setPgid_edits _ found changes ?_
  rcases named with own | there
  · exact .inl own
  · exact (allowed checks).imp_right fun permitted => ⟨notLeader, there, permitted⟩

/-- After `set_pgid` a process is in its new group, and the others are where
they were. -/
theorem setPgid_found {parent other member}
    (done : (scheme.setPgid pid process parent newPgid awoken).result = .ok ())
    (memberFound : (scheme.setPgid pid process parent newPgid awoken).scheme.get? other =
      some member) : ∃ before, scheme.get? other = some before ∧
      member.pgid = if other = pid then newPgid else before.pgid := by
  have alike := (scheme.wakeParent_alike parent awoken).symm
  simp only [setPgid] at done memberFound
  split at done
  · cases done
  next oldGroup oldFound =>
  simp only [oldFound, get?_regrouped] at memberFound
  split at memberFound
  next equality =>
    cases middleFound : (scheme.wakeParent parent awoken).1.get? other with
    | none =>
      rw [middleFound] at memberFound
      cases memberFound
    | some middle =>
      rw [middleFound] at memberFound
      cases memberFound
      obtain ⟨before, beforeFound, -⟩ := alike.found middleFound
      exact ⟨before, beforeFound, by rw [if_pos equality]⟩
  next different =>
  obtain ⟨before, beforeFound, same⟩ := alike.found memberFound
  exact ⟨before, beforeFound, by rw [if_neg different, same.kin.pgid]⟩

theorem setPgid_isSome {parent} (found : scheme.get? pid = some process) :
    ∃ after, (scheme.setPgid pid process parent newPgid awoken).scheme.get? pid =
      some after := by
  obtain ⟨middle, middleFound, -⟩ := (scheme.wakeParent_alike parent awoken).found found
  simp only [setPgid]
  split
  · exact ⟨middle, middleFound⟩
  · rw [get?_regrouped, middleFound]
    exact ⟨{ middle with pgid := newPgid }, by simp⟩

theorem onSetsid_edits :
    let done := scheme.onSetsid callerPid awoken
    Edits policy [.drain, .regroup, .setSid] (scheme, awoken) (done.scheme, done.awoken) := by
  intro done
  simp only [done, onSetsid]
  split
  · exact .refl _
  next unused =>
  split
  · exact .refl _
  next caller found =>
  split
  · exact .refl _
  split
  · exact .refl _
  next different =>
  have moved : Edits policy [.drain, .regroup, .setSid] (scheme, awoken) _ :=
    (setPgid_edits (some caller.ppid) found different (.inl rfl)).mono (by decide)
  split
  · exact moved
  next done =>
  refine moved.trans ?_
  obtain ⟨after, afterFound⟩ := setPgid_isSome found
  rw [modify_eq_set afterFound]
  refine .single (.setSid afterFound ?_ ?_) (by decide)
  · obtain ⟨before, _, sameGroup⟩ := setPgid_found done afterFound
    simpa using sameGroup
  · intro other member memberFound inGroup
    obtain ⟨before, beforeFound, sameGroup⟩ := setPgid_found done memberFound
    by_contra distinct
    rw [if_neg distinct, inGroup] at sameGroup
    -- The scan at the start would have met this member.
    apply unused
    rw [Table.any_eq_true_iff]
    exact ⟨other, before, beforeFound, by simp [distinct, ← sameGroup]⟩

theorem getD_mem {newId old} {ids : List UInt32} (oldMem : old ∈ ids)
    (newMem : ∀ id, newId = some id → id ∈ ids) : newId.getD old ∈ ids := by
  cases newId with
  | none => exact oldMem
  | some id => exact newMem id rfl

/-- Three identifiers that pass the check of `on_setresugid` are among the old
ones. -/
theorem checked_ids {first second third} {a b c : UInt32}
    (checked : ([first, second, third].filterMap id).all (fun id => [a, b, c].contains id) = true) :
    ∀ id ∈ [first.getD a, second.getD b, third.getD c], id ∈ [a, b, c] := by
  have passed : ∀ newId ∈ [first, second, third], ∀ id, newId = some id → id ∈ [a, b, c] := by
    intro newId member value equality
    have listed : value ∈ [first, second, third].filterMap id :=
      mem_filterMap.mpr ⟨newId, member, equality⟩
    have contained := all_eq_true.mp checked value listed
    exact contains_iff_mem.mp contained
  intro id member
  simp only [mem_cons, not_mem_nil, or_false] at member
  rcases member with rfl | rfl | rfl
  · exact getD_mem (by simp) (passed first (by simp))
  · exact getD_mem (by simp) (passed second (by simp))
  · exact getD_mem (by simp) (passed third (by simp))

theorem onSetresugid_edits {raw aligned} :
    Ends (fun set => Edits policy [.creds] (scheme, awoken) (set.1, awoken))
      (scheme.onSetresugid pid raw aligned) := by
  unfold onSetresugid
  split
  · trivial
  split
  · split
    · exact .refl _
    next process found =>
    split
    · exact .refl _
    next uidsChecked =>
    split
    · exact .refl _
    next gidsChecked =>
    refine set_edits found (.creds ⟨⟨rfl, rfl, rfl⟩, rfl, rfl, rfl, rfl, rfl, ?_, ?_⟩) (by decide)
    · intro notRoot
      exact checked_ids (by simpa [notRoot] using uidsChecked)
    · intro notRoot
      exact checked_ids (by simpa [notRoot] using gidsChecked)
  · exact .refl _

end EosBase.Procmgr.ProcScheme
