import EosBase.Procmgr.Identity
import EosBase.Procmgr.Scenario

/-!
# Credentials

A process whose user identifiers are all nonzero cannot gain any identifier,
and neither can a process that descends from it.
-/

namespace EosBase.Procmgr

open Redox Manager Scenario ProcScheme

structure Process.CredsWithin (process : Process) (uids gids : List UInt32) : Prop where
  uids : ∀ id ∈ [process.ruid, process.euid, process.suid], id ∈ uids
  gids : ∀ id ∈ [process.rgid, process.egid, process.sgid], id ∈ gids

namespace Process

variable {before after : Process} {uids gids : List UInt32}

theorem CredsWithin.of_credsFrom (within : before.CredsWithin uids gids)
    (noRoot : (0 : UInt32) ∉ uids) (derived : before.CredsFrom after) :
    after.CredsWithin uids gids := by
  have notRoot : before.euid ≠ 0 := by
    intro root
    exact noRoot (root ▸ within.uids before.euid (by simp))
  constructor
  · intro id member
    exact within.uids id (derived.uids notRoot id member)
  · intro id member
    exact within.gids id (derived.gids notRoot id member)

end Process

variable {scheme : ProcScheme} {uids gids : List UInt32}

theorem ProcEdit.credsWithin {pid added policy kind before after}
    (edit : ProcEdit policy scheme pid kind before after added) (noRoot : (0 : UInt32) ∉ uids)
    (within : before.CredsWithin uids gids) : after.CredsWithin uids gids := by
  cases edit with
  | page touched | touch touched =>
    constructor
    · rw [touched.creds.ruid, touched.creds.euid, touched.creds.suid]
      exact within.uids
    · rw [touched.creds.rgid, touched.creds.egid, touched.creds.sgid]
      exact within.gids
  | creds derived => exact within.of_credsFrom noRoot derived
  | _ => exact ⟨within.uids, within.gids⟩

def Spawned (transition : Transition Manager Event Response) (parent child : ProcessId) : Prop :=
  transition.before.scheme.get? child = none ∧
    ∃ process, transition.after.scheme.get? child = some process ∧ process.ppid = parent

/-- The processes that descend from `root` by the forks of a history. -/
def descendants (root : ProcessId) (history : List (Transition Manager Event Response)) :
    Set ProcessId :=
  history.foldl
    (fun known transition =>
      known ∪ { child | ∃ parent ∈ known, Spawned transition parent child })
    {root}

variable {history : List (Transition Manager Event Response)}

theorem mem_descendants_append {pid root transition} : pid ∈ descendants root
    (history ++ [transition]) ↔
      pid ∈ descendants root history ∨
        ∃ parent ∈ descendants root history, Spawned transition parent pid := by
  simp [descendants, List.foldl_append]

/-- After a history, every descendant has used an identifier, and has only
identifiers of the given sets. -/
structure Bounded (root : ProcessId) (uids gids : List UInt32)
    (history : List (Transition Manager Event Response)) (manager : Manager) : Prop where
  registered : ¬ manager.scheme.Unregistered
  used : ∀ pid ∈ descendants root history, pid < manager.scheme.nextId
  within : ∀ pid ∈ descendants root history, ∀ process,
    manager.scheme.get? pid = some process → process.CredsWithin uids gids

theorem Bounded.step {root manager manager' event output}
    (bounded : Bounded root uids gids history manager)
    (reached : procmgr.Reachable manager) (noRoot : (0 : UInt32) ∉ uids)
    (stepped : procmgr.step manager event = some (manager', output)) :
    Bounded root uids gids (history ++ [⟨manager, event, output, manager'⟩]) manager' := by
  obtain ⟨awoken, edits, -⟩ :=
    later_edits bounded.registered Policy.free_allows stepped
  have larger : manager.scheme.nextId ≤ manager'.scheme.nextId := edits.counters_le.1
  have fresh := fresh (reached.step trivial stepped)
  have registers := registration_step (registration reached) stepped
  refine ⟨fun unregistered => bounded.registered (registers.back unregistered), ?_, ?_⟩
  · intro pid member
    rcases (mem_descendants_append).mp member with
      old | ⟨parentPid, -, missing, process, found, -⟩
    · exact (bounded.used pid old).trans_le larger
    · exact (fresh.process pid process found).1
  · intro pid member process found
    rcases (mem_descendants_append).mp member with
      old | ⟨parentPid, parentOld, missing, child, childFound, samePpid⟩
    · refine edits.preserveProcess registerInit_not_later
        (bounded.used pid old) ?_ (bounded.within pid old) process found
      intro kind _ scheme before after added evolves within
      cases evolves with
      | edit edit => exact edit.credsWithin noRoot within
      | _ => exact ⟨within.uids, within.gids⟩
    · have same : child = process := Option.some.inj (childFound.symm.trans found)
      subst same
      obtain ⟨parent, thread, parentFound, made⟩ :=
        spawned bounded.registered stepped missing childFound
      rw [samePpid] at parentFound
      have within := bounded.within parentPid parentOld parent parentFound
      rw [made]
      exact ⟨within.uids, within.gids⟩

theorem onSetresugid_error {pid scheme' raw aligned errno}
    (failed : scheme.onSetresugid pid raw aligned = some (scheme', .error errno)) :
    scheme' = scheme := by
  unfold onSetresugid at failed
  split at failed
  · cases failed
  split at failed
  · split at failed
    · cases failed
      rfl
    split at failed
    · cases failed
      rfl
    split at failed
    · cases failed
      rfl
    · cases failed
  · cases failed
    rfl

/-- A process without root identifiers, and all that descend from it, keep to
the identifiers it had, along any path; and a failing `setresugid` changes
nothing. -/
theorem no_privilege_gain : (∀ (origin manager : Manager) (root : ProcessId) (initial : Process)
      (history : List (Transition Manager Event Response)),
      procmgr.Reachable origin → origin.scheme.get? root = some initial →
      initial.ruid ≠ 0 → initial.euid ≠ 0 → initial.suid ≠ 0 →
      procmgr.Path (fun _ _ => True) origin history manager →
      ∀ pid ∈ descendants root history, ∀ process, manager.scheme.get? pid = some process →
        (∀ id ∈ [process.ruid, process.euid, process.suid],
          id ∈ [initial.ruid, initial.euid, initial.suid]) ∧
        (∀ id ∈ [process.rgid, process.egid, process.sgid],
          id ∈ [initial.rgid, initial.egid, initial.sgid])) ∧
    (∀ (manager manager' : Manager) (kernel : Kernel) (op : OpCall) (pid : ProcessId)
      (response : Response) (errno : Errno),
      manager.scheme.handles.get? op.fd = some (.proc pid) →
      op.procCall = some .setResugid → response.result = .error errno →
      procmgr.step manager (.request (.call op) kernel) = some (manager', some response) →
      manager'.scheme = manager.scheme) := by
  constructor
  · intro origin manager root initial history reached found ruid euid suid path
    have noRoot : (0 : UInt32) ∉ [initial.ruid, initial.euid, initial.suid] := by
      simp [ruid.symm, euid.symm, suid.symm]
    suffices bounded : Bounded root [initial.ruid, initial.euid, initial.suid]
        [initial.rgid, initial.egid, initial.sgid] history manager by
      intro pid member process processFound
      have within := bounded.within pid member process processFound
      exact ⟨within.uids, within.gids⟩
    induction path with
    | start =>
      refine ⟨?_, ?_, ?_⟩
      · intro unregistered
        have pristine := (registration reached).pristine unregistered
        rw [pristine.blank.1 root] at found
        cases found
      · rintro pid rfl
        exact ((fresh reached).process pid initial found).1
      · rintro pid rfl process processFound
        cases found.symm.trans processFound
        exact ⟨fun _ member => member, fun _ member => member⟩
    | step path _ stepped ih =>
      exact ih.step (reached.path path) noRoot stepped
  · intro manager manager' kernel op pid response errno opened named failed stepped
    obtain ⟨work, called, finished⟩ :=
      Option.map_eq_some_iff.mp (of_step_request stepped).2
    simp only [onCall, opened, named, onProcCall, Option.map_eq_some_iff] at called
    rcases called with ⟨⟨scheme', result⟩, set, rfl⟩
    cases finished
    cases result with
    | ok value => cases failed
    | error errno => exact onSetresugid_error set

def sixIds (low high : UInt8) : List UInt8 :=
  (List.replicate 6 [low, high, 0, 0]).flatten

def setIdsOp (handle : Nat) (low high : UInt8) : OpCall :=
  { callOp 6 handle .setResugid 0 0 with payload := sixIds low high }

def setIds (handle : Nat) (low high : UInt8) : Event :=
  .request (.call (setIdsOp handle low high)) (kernel 9 0)

def userRun : List Event := boot ++ [fork 1 2 102, setIds 2 232 3]

/-- Its child asks for root in vain. -/
theorem no_privilege_gain_child : ∃ (before after : Manager) (child : Process)
    (response : Response), procmgr.Reachable before ∧
    procmgr.step before (setIds 3 0 0) = some (after, some response) ∧
    response.result = .error .EPERM ∧ after.scheme = before.scheme ∧
    before.scheme.get? 3 = some child ∧ child.ppid = 2 ∧
    ∀ id ∈ [child.ruid, child.euid, child.suid], id ∈ [1000, 1000, 1000] := by
  have reached := procmgr.reachable_replay userRun rfl
  have path := procmgr.path_replay (fun _ _ => True) [fork 2 3 103]
    ((procmgr.replay (fun _ _ => True) procmgr.start userRun).get rfl).2 rfl
  refine ⟨_, _, _, _, reached.path path, rfl, rfl, ?_, rfl, rfl, ?_⟩
  · exact no_privilege_gain.2 _ _ (kernel 9 0) (setIdsOp 3 0 0) 3 _ .EPERM rfl rfl rfl rfl
  · exact (no_privilege_gain.1 _ _ 2 _ _ reached rfl (by decide) (by decide) (by decide) path 3
      (.inr ⟨2, rfl, rfl, _, rfl, rfl⟩) _ rfl).1

end EosBase.Procmgr
