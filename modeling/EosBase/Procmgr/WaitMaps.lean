import EosBase.Procmgr.Identity

/-!
# The maps of waitable statuses

Every key that is stored names both a process and a group, and stored keys are
compared by process.  So a map holds at most one status for each process, and a
lookup by process finds it whatever the shape of the tree.  Lookups by group
compare differently and are treated separately.
-/

namespace EosBase.Procmgr

open Redox List ProcScheme WaitpidKey BTreeMap WaitpidTarget

/-- The number by which keys with a process are compared. -/
def WaitpidKey.rank (key : WaitpidKey) : Nat := key.pid.getD 0

variable {key : WaitpidKey} {pid : ProcessId}

/-- The laws of a total order, for three keys. -/
structure WaitpidKey.Lawful (a b c : WaitpidKey) : Prop where
  swap : a.cmp b = (b.cmp a).swap
  le_trans : (a.cmp b).isLE → (b.cmp c).isLE → (a.cmp c).isLE
  eq_trans : a.cmp b = .eq → b.cmp c = .eq → a.cmp c = .eq

/-- What keys would be compared by if a group counted only in the absence of a process. -/
def WaitpidKey.weight (key : WaitpidKey) : Nat × Nat :=
  match key.pid, key.pgid with
  | some pid, _ => (2, pid)
  | none, some pgid => (1, pgid)
  | none, none => (0, 0)

def WaitpidKey.byWeight : WaitpidKey → WaitpidKey → Ordering :=
  compareLex (compareOn (·.weight.1)) (compareOn (·.weight.2))

instance : Std.TransCmp byWeight :=
  inferInstanceAs (Std.TransCmp (compareLex (compareOn fun key : WaitpidKey => key.weight.1)
    (compareOn fun key : WaitpidKey => key.weight.2)))

theorem WaitpidKey.cmp_eq_byWeight {allowed : Bool → Bool → Prop} {a b}
    (apart : ¬ (allowed true true ∧ allowed false true))
    (first : allowed a.pid.isSome a.pgid.isSome) (second : allowed b.pid.isSome b.pgid.isSome) :
    a.cmp b = byWeight a b := by
  obtain ⟨aPid, aPgid⟩ := a
  obtain ⟨bPid, bPgid⟩ := b
  cases aPid <;> cases aPgid <;> cases bPid <;> cases bPgid <;> try rfl
  -- a group alone against a process with its group, either way round
  · exact absurd ⟨second, first⟩ apart
  · exact absurd ⟨first, second⟩ apart

/-- A group equals each of its members, which differ. -/
theorem WaitpidKey.group_unlawful :
    ¬ WaitpidKey.Lawful ⟨some 1, some 7⟩ ⟨none, some 7⟩ ⟨some 2, some 7⟩ := by
  intro lawful
  cases lawful.eq_trans rfl rfl

/-- Keys are compared lawfully as long as those that name only a group do not meet those
that name a process as well. -/
theorem waitpidKey_lawful_iff (allowed : Bool → Bool → Prop) :
    (∀ a b c : WaitpidKey, allowed a.pid.isSome a.pgid.isSome →
      allowed b.pid.isSome b.pgid.isSome → allowed c.pid.isSome c.pgid.isSome → a.Lawful b c) ↔
      ¬ (allowed true true ∧ allowed false true) := by
  constructor
  · rintro lawful ⟨both, group⟩
    exact group_unlawful (lawful _ _ _ both group both)
  · intro apart a b c first second third
    have ab := cmp_eq_byWeight apart first second
    have ba := cmp_eq_byWeight apart second first
    have bc := cmp_eq_byWeight apart second third
    have ac := cmp_eq_byWeight apart first third
    constructor
    · rw [ab, ba]
      exact Std.OrientedCmp.eq_swap
    · rw [ab, bc, ac]
      exact Std.TransCmp.isLE_trans
    · rw [ab, bc, ac]
      exact Std.TransCmp.eq_trans

theorem waitpidKey_order_unlawful : ¬ ∀ a b c : WaitpidKey, a.Lawful b c :=
  fun lawful => group_unlawful (lawful _ _ _)

variable {entry : WaitpidKey × ProcessId × WaitpidStatus} {pgid : ProcessId}

namespace WaitpidMap

def Holds (map : WaitpidMap) (pid : ProcessId) (status : WaitpidStatus) : Prop :=
  ∃ pgid, ((⟨some pid, some pgid⟩, pid, status) : WaitpidKey × ProcessId × WaitpidStatus) ∈
    map.entries

/-- Stored keys are complete, agree with their value, and stand in order. -/
structure WellKeyed (map : WaitpidMap) : Prop where
  ordered : BTreeMap.OrderedBy rank map.entries
  keyed : ∀ entry ∈ map.entries, ∃ pgid, entry.1 = ⟨some entry.2.1, some pgid⟩

variable {map other : WaitpidMap} {index : Nat}

theorem wellKeyed_empty : WellKeyed .empty :=
  ⟨List.Pairwise.nil, fun _ member => absurd member not_mem_nil⟩

theorem not_holds_empty (pid : ProcessId) (status : WaitpidStatus) : ¬ Holds .empty pid status := by
  rintro ⟨pgid, member⟩
  exact not_mem_nil member

section

variable (wellKeyed : map.WellKeyed)

include wellKeyed

theorem WellKeyed.holds_of_mem (member : entry ∈ map.entries) : map.Holds entry.2.1 entry.2.2 := by
  obtain ⟨pgid, keyed⟩ := wellKeyed.keyed entry member
  refine ⟨pgid, ?_⟩
  rw [← keyed]
  exact member

theorem WellKeyed.rank_eq (member : entry ∈ map.entries) : entry.1.rank = entry.2.1 := by
  obtain ⟨pgid, keyed⟩ := wellKeyed.keyed entry member
  rw [keyed]
  rfl

theorem WellKeyed.ranks (named : key.pid = some pid) :
    BTreeMap.Ranks WaitpidKey.cmp WaitpidKey.rank key map.entries := by
  intro entry member
  obtain ⟨pgid, keyed⟩ := wellKeyed.keyed entry member
  have entryPid : entry.1.pid = some entry.2.1 := by rw [keyed]
  simp [WaitpidKey.cmp, WaitpidKey.rank, named, entryPid]

theorem WellKeyed.unique {first second} (holdsFirst : map.Holds pid first)
    (holdsSecond : map.Holds pid second) : first = second := by
  obtain ⟨firstPgid, firstMem⟩ := holdsFirst
  obtain ⟨secondPgid, secondMem⟩ := holdsSecond
  have same := wellKeyed.ordered.eq_of_rank_eq firstMem secondMem rfl
  simp only [Prod.mk.injEq] at same
  exact same.2.2

theorem WellKeyed.pid_of_eq (member : entry ∈ map.entries) (named : key.pid = some pid)
    (equal : key.cmp entry.1 = .eq) : entry.2.1 = pid := by
  rw [wellKeyed.ranks named entry member, Nat.compare_eq_eq,
    wellKeyed.rank_eq member, rank, named, Option.getD_some] at equal
  exact equal.symm

end

section Place

variable {entry : WaitpidKey × ProcessId × WaitpidStatus}
  {merge : WaitpidKey × ProcessId × WaitpidStatus → WaitpidKey × ProcessId × WaitpidStatus}

/-- What placing an entry does to a well-keyed map, when an entry for the same
process takes over the new value. -/
theorem WellKeyed.place (wellKeyed : map.WellKeyed)
    (keyed : ∃ pgid, entry.1 = ⟨some entry.2.1, some pgid⟩)
    (merged : ∀ old ∈ map.entries, old.2.1 = entry.2.1 →
      (∃ pgid, (merge old).1 = ⟨some entry.2.1, some pgid⟩) ∧ (merge old).2 = entry.2) :
    WellKeyed ⟨place cmp merge entry map.entries⟩ ∧
      ∀ pid status, Holds ⟨place cmp merge entry map.entries⟩ pid status ↔
        (pid = entry.2.1 ∧ status = entry.2.2) ∨ (pid ≠ entry.2.1 ∧ map.Holds pid status) := by
  obtain ⟨entryPgid, keyed⟩ := keyed
  have entryRank : entry.1.rank = entry.2.1 := by
    rw [keyed]
    rfl
  have ranks := wellKeyed.ranks (show entry.1.pid = some entry.2.1 by rw [keyed])
  have sameRank : ∀ old ∈ map.entries, (old.1.rank = entry.1.rank ↔ old.2.1 = entry.2.1) := by
    intro old member
    rw [wellKeyed.rank_eq member, entryRank]
  have placed : ∀ candidate, candidate ∈ BTreeMap.place cmp merge entry map.entries ↔ _ :=
    BTreeMap.mem_place_iff wellKeyed.ordered ranks
  refine ⟨⟨?_, ?_⟩, ?_⟩
  · refine wellKeyed.ordered.place ranks ?_
    intro old member same
    obtain ⟨⟨pgid, mergedKey⟩, -⟩ := merged old member ((sameRank old member).mp same)
    rw [mergedKey, entryRank]
    rfl
  · intro candidate member
    rcases (placed candidate).mp member with
      ⟨inside, -⟩ | ⟨old, oldMem, same, rfl⟩ | ⟨-, rfl⟩
    · exact wellKeyed.keyed candidate inside
    · obtain ⟨⟨pgid, mergedKey⟩, mergedValue⟩ := merged old oldMem ((sameRank old oldMem).mp same)
      rw [mergedValue]
      exact ⟨pgid, mergedKey⟩
    · exact ⟨entryPgid, keyed⟩
  · intro pid status
    constructor
    · rintro ⟨pgid, member⟩
      rcases (placed _).mp member with
        ⟨inside, different⟩ | ⟨old, oldMem, same, equality⟩ | ⟨-, equality⟩
      · rw [Ne, sameRank _ inside] at different
        exact .inr ⟨different, pgid, inside⟩
      · obtain ⟨-, mergedValue⟩ := merged old oldMem ((sameRank old oldMem).mp same)
        have value := congrArg Prod.snd equality
        rw [mergedValue] at value
        exact .inl ⟨congrArg Prod.fst value, congrArg Prod.snd value⟩
      · have value := congrArg Prod.snd equality
        exact .inl ⟨congrArg Prod.fst value, congrArg Prod.snd value⟩
    · rintro (⟨rfl, rfl⟩ | ⟨different, pgid, member⟩)
      · by_cases present : ∃ old ∈ map.entries, old.1.rank = entry.1.rank
        · obtain ⟨old, oldMem, same⟩ := present
          obtain ⟨⟨pgid, mergedKey⟩, mergedValue⟩ :=
            merged old oldMem ((sameRank old oldMem).mp same)
          refine ⟨pgid, (placed _).mpr (.inr (.inl ⟨old, oldMem, same, ?_⟩))⟩
          exact Prod.ext mergedKey.symm mergedValue.symm
        · push Not at present
          refine ⟨entryPgid, (placed _).mpr (.inr (.inr ⟨present, ?_⟩))⟩
          exact Prod.ext keyed.symm rfl
      · exact ⟨pgid, (placed _).mpr (.inl ⟨member,
          fun same => different ((sameRank _ member).mp same)⟩)⟩

end Place

theorem WellKeyed.insert (wellKeyed : map.WellKeyed) (childPid pgid : ProcessId)
    (status : WaitpidStatus) :
    WellKeyed (map.insert cmp ⟨some childPid, some pgid⟩ (childPid, status)) ∧
      ∀ pid other, Holds
        (map.insert cmp ⟨some childPid, some pgid⟩ (childPid, status)) pid other ↔
        (pid = childPid ∧ other = status) ∨ (pid ≠ childPid ∧ map.Holds pid other) := by
  refine wellKeyed.place ⟨pgid, rfl⟩ ?_
  intro old member same
  obtain ⟨oldPgid, keyed⟩ := wellKeyed.keyed old member
  refine ⟨⟨oldPgid, ?_⟩, rfl⟩
  rw [keyed]
  exact congrArg (fun pid => (⟨some pid, some oldPgid⟩ : WaitpidKey)) same

theorem holds_cons {rest} (keyed : ∃ pgid, entry.1 = ⟨some entry.2.1, some pgid⟩) (pid : ProcessId)
    (status : WaitpidStatus) : Holds ⟨entry :: rest⟩ pid status ↔
      (pid = entry.2.1 ∧ status = entry.2.2) ∨ Holds ⟨rest⟩ pid status := by
  obtain ⟨entryPgid, keyed⟩ := keyed
  constructor
  · rintro ⟨pgid, member⟩
    rcases mem_cons.mp member with equality | later
    · have value := congrArg Prod.snd equality
      exact .inl ⟨congrArg Prod.fst value, congrArg Prod.snd value⟩
    · exact .inr ⟨pgid, later⟩
  · rintro (⟨rfl, rfl⟩ | ⟨pgid, member⟩)
    · exact ⟨entryPgid, mem_cons.mpr (.inl (Prod.ext keyed.symm rfl))⟩
    · exact ⟨pgid, mem_cons_of_mem _ member⟩

theorem WellKeyed.append (wellKeyed : map.WellKeyed) (otherKeyed : other.WellKeyed) :
    WellKeyed (map.append cmp other) ∧
      ∀ pid status, Holds (map.append cmp other) pid status ↔
        other.Holds pid status ∨ ((∀ old, ¬ other.Holds pid old) ∧ map.Holds pid status) := by
  obtain ⟨entries⟩ := other
  unfold append
  induction entries generalizing map with
  | nil =>
    refine ⟨wellKeyed, ?_⟩
    intro pid status
    have none : ∀ old, ¬ Holds ⟨[]⟩ pid old := not_holds_empty pid
    exact ⟨fun holds => .inr ⟨none, holds⟩,
      fun holds => holds.elim (fun holds => absurd holds (none status)) And.right⟩
  | cons entry rest ih =>
    have entryKeyed := otherKeyed.keyed entry (by simp)
    obtain ⟨entryBelow, restOrdered⟩ := pairwise_cons.mp otherKeyed.ordered
    have restKeyed : WellKeyed ⟨rest⟩ :=
      ⟨restOrdered, fun later member =>
        otherKeyed.keyed later (mem_cons_of_mem _ member)⟩
    have unlisted : ∀ old, ¬ Holds ⟨rest⟩ entry.2.1 old := by
      rintro old ⟨pgid, member⟩
      have below := entryBelow _ member
      rw [otherKeyed.rank_eq (by simp)] at below
      exact lt_irrefl _ below
    obtain ⟨placedKeyed, placedHolds⟩ := @WellKeyed.place map entry (fun _ => entry) wellKeyed
      entryKeyed (fun _ _ _ => ⟨entryKeyed, rfl⟩)
    obtain ⟨appendedKeyed, appendedHolds⟩ := ih placedKeyed restKeyed
    refine ⟨appendedKeyed, ?_⟩
    intro pid status
    simp only [foldl_cons, appendedHolds, placedHolds, holds_cons entryKeyed]
    by_cases same : pid = entry.2.1
    · subst same
      simp [unlisted]
    · simp [same]

theorem WellKeyed.eraseIdx (wellKeyed : map.WellKeyed) (index : Nat) :
    WellKeyed ⟨map.entries.eraseIdx index⟩ := by
  have sublist := eraseIdx_sublist map.entries index
  exact ⟨wellKeyed.ordered.sublist sublist,
    fun entry member => wellKeyed.keyed entry (sublist.subset member)⟩

theorem WellKeyed.holds_eraseIdx (wellKeyed : map.WellKeyed)
    (inside : map.entries[index]? = some entry) (pid : ProcessId) (status : WaitpidStatus) :
    Holds ⟨map.entries.eraseIdx index⟩ pid status ↔
      pid ≠ entry.2.1 ∧ map.Holds pid status := by
  have entryRank := wellKeyed.rank_eq (mem_of_getElem? inside)
  have erased : ∀ candidate, candidate ∈ map.entries.eraseIdx index ↔ _ := fun candidate =>
    @BTreeMap.OrderedBy.mem_eraseIdx_iff _ _ _ _ _ _ candidate wellKeyed.ordered inside
  constructor
  · rintro ⟨pgid, member⟩
    obtain ⟨old, different⟩ := (erased _).mp member
    rw [entryRank] at different
    exact ⟨different, pgid, old⟩
  · rintro ⟨different, pgid, member⟩
    refine ⟨pgid, (erased _).mpr ⟨member, ?_⟩⟩
    rw [entryRank]
    exact different

theorem WellKeyed.position (wellKeyed : map.WellKeyed) (pivot : Nat → Nat → Nat)
    (named : key.pid = some entry.2.1) (inside : map.entries[index]? = some entry) :
    map.position cmp pivot key = some index := by
  refine position_of_rank_eq wellKeyed.ordered (wellKeyed.ranks named) inside ?_
  rw [wellKeyed.rank_eq (mem_of_getElem? inside), rank, named]
  rfl

theorem WellKeyed.remove (wellKeyed : map.WellKeyed) (pivot : Nat → Nat → Nat) {removed}
    (named : key.pid = some removed) : WellKeyed (map.remove cmp pivot key) ∧
      ∀ pid status, Holds (map.remove cmp pivot key) pid status ↔
        pid ≠ removed ∧ map.Holds pid status := by
  by_cases held : ∃ status, map.Holds removed status
  · obtain ⟨status, pgid, member⟩ := held
    obtain ⟨index, inside⟩ := getElem?_of_mem member
    have result : map.remove cmp pivot key = ⟨map.entries.eraseIdx index⟩ := by
      simp only [BTreeMap.remove, wellKeyed.position pivot named inside]
    rw [result]
    exact ⟨wellKeyed.eraseIdx index, wellKeyed.holds_eraseIdx inside⟩
  · have missing : map.position cmp pivot key = none := by
      cases found : map.position cmp pivot key with
      | none => rfl
      | some index =>
        exfalso
        obtain ⟨entry, inside, equal⟩ := (search_found found).2
        have member := mem_of_getElem? inside
        have same := wellKeyed.pid_of_eq member named equal
        exact held ⟨entry.2.2, same ▸ wellKeyed.holds_of_mem member⟩
    have result : map.remove cmp pivot key = map := by
      simp only [BTreeMap.remove, missing]
    rw [result]
    refine ⟨wellKeyed, ?_⟩
    intro pid status
    constructor
    · intro holds
      refine ⟨?_, holds⟩
      rintro rfl
      exact held ⟨status, holds⟩
    · exact And.right

theorem getKeyValue_found {pivot} (found : map.getKeyValue cmp pivot key = some entry) :
    ∃ index, map.position cmp pivot key = some index ∧
      map.entries[index]? = some entry ∧ key.cmp entry.1 = .eq := by
  obtain ⟨index, position, inside⟩ := Option.bind_eq_some_iff.mp found
  obtain ⟨stored, storedInside, equal⟩ := (search_found position).2
  cases inside.symm.trans storedInside
  exact ⟨index, position, inside, equal⟩

theorem WellKeyed.pgid_of_eq (wellKeyed : map.WellKeyed) (member : entry ∈ map.entries)
    (equal : cmp ⟨none, some pgid⟩ entry.1 = .eq) : entry.1.pgid = some pgid := by
  obtain ⟨stored, keyed⟩ := wellKeyed.keyed entry member
  rw [keyed] at equal ⊢
  have same : compare pgid stored = .eq := equal
  rw [Nat.compare_eq_eq] at same
  rw [same]

end WaitpidMap

def ProcScheme.WellKeyed (scheme : ProcScheme) : Prop :=
  ∀ pid process, scheme.get? pid = some process → WaitpidMap.WellKeyed process.waitpid

variable {scheme : ProcScheme}

theorem ProcEdit.wellKeyed {policy kind before after added}
    (edit : ProcEdit policy scheme pid kind before after added)
    (wellKeyed : WaitpidMap.WellKeyed before.waitpid) : WaitpidMap.WellKeyed after.waitpid := by
  cases edit with
  | page touched | touch touched =>
    rw [touched.waitpid]
    exact wellKeyed
  | creds derived =>
    rw [derived.waitpid]
    exact wellKeyed
  | record | recordExit => exact (wellKeyed.insert _ _ _).1
  | consume index => exact wellKeyed.eraseIdx index
  | _ => exact wellKeyed

theorem Edit.wellKeyed {policy kind first second} (edit : Edit policy kind first second)
    (small : kind.Small)
    (wellKeyed : first.1.WellKeyed) : second.1.WellKeyed := by
  intro pid process found
  cases edit with
  | wait | complete => exact absurd small (by decide)
  | process beforeFound edit =>
    rcases set_found found with ⟨rfl, rfl⟩ | ⟨-, otherFound⟩
    · exact edit.wellKeyed (wellKeyed _ _ beforeFound)
    · exact wellKeyed pid process otherFound
  | setSid beforeFound _ _ =>
    rcases set_found found with ⟨rfl, rfl⟩ | ⟨-, otherFound⟩
    · have old := wellKeyed _ _ beforeFound
      exact old
    · exact wellKeyed pid process otherFound
  | fork =>
    rw [get?_forked] at found
    split at found
    · cases found
      exact WaitpidMap.wellKeyed_empty
    · exact wellKeyed pid process found
  | registerInit thread noProcess _ =>
    rw [(withInit_found noProcess found).2]
    exact WaitpidMap.wellKeyed_empty
  | regroup =>
    rw [get?_regrouped] at found
    split at found
    · obtain ⟨old, oldFound, rfl⟩ := Option.map_eq_some_iff.mp found
      exact wellKeyed pid old oldFound
    · exact wellKeyed pid process found
  | reap => exact wellKeyed pid process (reap_found found)
  | reparent current child =>
    cases reparent_found found with
    | same oldFound => exact wellKeyed pid process oldFound
    | adopter oldFound childFound =>
      exact ((wellKeyed _ _ oldFound).append (wellKeyed child _ childFound)).1
    | adopted => exact WaitpidMap.wellKeyed_empty
  | handles => exact wellKeyed pid process found
  | internal processes _ _ _ _ _ =>
    rw [get?, processes] at found
    exact wellKeyed pid process found

theorem wellKeyed_start : Manager.start.scheme.WellKeyed := by
  intro pid process found
  cases (Table.get?_empty).symm.trans found

theorem Manager.wellKeyed {manager} (reached : procmgr.Reachable manager) :
    manager.scheme.WellKeyed := by
  refine scheme_invariant wellKeyed_start ?_ (freely reached)
  intro kind _ before after edit small wellKeyed
  exact edit.wellKeyed small wellKeyed

def WaitpidTarget.meets (process : Process) : WaitpidTarget → List WaitpidStatus
  | .anyChild => process.waitpid.firstKeyValue.toList.map fun entry => entry.2.2
  | .anyGroupMember => inGroup process.pgid
  | .singleProc pid =>
    (process.waitpid.entries.filter fun entry => entry.1.pid == some pid).map
      fun entry => entry.2.2
  | .procGroup pgid => inGroup pgid
where
  inGroup (pgid : ProcessId) : List WaitpidStatus :=
    (process.waitpid.entries.filter fun entry => entry.1.pgid == some pgid).map
      fun entry => entry.2.2

theorem WaitpidTarget.mem_inGroup {pivot process} (wellKeyed : WaitpidMap.WellKeyed process.waitpid)
    (met : process.waitpid.getKeyValue cmp pivot ⟨none, some pgid⟩ = some entry) :
    entry.2.2 ∈ meets.inGroup process pgid := by
  obtain ⟨index, -, inside, equal⟩ := WaitpidMap.getKeyValue_found met
  have member := mem_of_getElem? inside
  have same := wellKeyed.pgid_of_eq member equal
  apply mem_map_of_mem
  exact mem_filter.mpr ⟨member, by simp [same]⟩

namespace ProcScheme

/-- Where the status that a wait takes comes from: the map of the waiter, or a
child of it that has exited. -/
inductive Takes (scheme : ProcScheme) (thisPid : ProcessId) (target : WaitpidTarget)
    (process : Process) (wPid : ProcessId) (status : WaitpidStatus) : Prop where
  | entry (holds : WaitpidMap.Holds process.waitpid wPid status)
      (met : status ∈ target.meets process)
  | child {targetProc : Process} {signal : Option Nat} {code : Nat}
      (found : scheme.get? wPid = some targetProc) (parent : targetProc.ppid = thisPid)
      (other : thisPid ≠ wPid) (exited : targetProc.status = .exited signal code)
      (report : status = .terminated signal code)

inductive WaitOutcome (scheme : ProcScheme) (thisPid : ProcessId) (target : WaitpidTarget)
    (flags : WaitFlags) (reqId : VirtualId) : Waited → Prop where
  | failed (errno : Errno) :
      WaitOutcome scheme thisPid target flags reqId (scheme, .ready (.error errno))
  | nothing (noHang : flags.wnohang = true) :
      WaitOutcome scheme thisPid target flags reqId (scheme, .ready (.ok (0, 0)))
  | registered {process : Process} (found : scheme.get? thisPid = some process) :
      WaitOutcome scheme thisPid target flags reqId
        (scheme.set thisPid
          { process with waitpidWaiting := process.waitpidWaiting ++ [reqId] }, .pending)
  | taken {process : Process} {remaining : WaitpidMap} {wPid : ProcessId}
      {status : WaitpidStatus} (found : scheme.get? thisPid = some process)
      (takes : scheme.Takes thisPid target process wPid status)
      (remains : ∀ pid other, WaitpidMap.Holds remaining pid other ↔
        pid ≠ wPid ∧ WaitpidMap.Holds process.waitpid pid other) :
      WaitOutcome scheme thisPid target flags reqId
        ((scheme.set thisPid { process with waitpid := remaining }).grimReaper flags wPid status)

variable {wPid thisPid : ProcessId}

/-- What a wait selects is there to be taken, and its removal takes nothing else. -/
theorem waitSelection_takes {process target status kernel}
    (keyed : WaitpidMap.WellKeyed process.waitpid)
    (admits : scheme.Admits thisPid target)
    (selected : scheme.waitSelection kernel process target = some (key, wPid, status)) :
    scheme.Takes thisPid target process wPid status ∧ ∀ pid other,
        WaitpidMap.Holds (process.waitpid.remove cmp kernel.pivot key) pid other ↔
          pid ≠ wPid ∧ WaitpidMap.Holds process.waitpid pid other := by
  have stored (member : (key, wPid, status) ∈ process.waitpid.entries) : ∀ pid other,
        WaitpidMap.Holds (process.waitpid.remove cmp kernel.pivot key) pid other ↔
          pid ≠ wPid ∧ WaitpidMap.Holds process.waitpid pid other := by
    obtain ⟨pgid, named⟩ := keyed.keyed _ member
    exact (keyed.remove kernel.pivot (congrArg pid named)).2
  cases target with
  | anyChild =>
    have member := mem_of_mem_head? selected
    refine ⟨.entry (keyed.holds_of_mem member) ?_, stored member⟩
    have first : process.waitpid.firstKeyValue = some (key, wPid, status) := selected
    simp [meets, first]
  | anyGroupMember =>
    obtain ⟨index, -, inside, -⟩ := WaitpidMap.getKeyValue_found selected
    have member := mem_of_getElem? inside
    exact ⟨.entry (keyed.holds_of_mem member) (mem_inGroup keyed selected), stored member⟩
  | singleProc pid =>
    have removed := keyed.remove kernel.pivot
      (show (⟨some pid, none⟩ : WaitpidKey).pid = some pid from rfl)
    simp only [waitSelection] at selected
    split at selected
    next signal code recorded =>
      obtain ⟨targetProc, targetFound, exited⟩ := Option.map_eq_some_iff.mp recorded
      obtain ⟨-, other, parent⟩ := admits
      rw [targetFound, Option.any_some, beq_iff_eq] at parent
      cases selected
      exact ⟨.child targetFound parent other exited rfl, removed.2⟩
    · obtain ⟨⟨found, _, _⟩, met, same⟩ := Option.map_eq_some_iff.mp selected
      cases same
      obtain ⟨index, position, inside, equal⟩ := WaitpidMap.getKeyValue_found met
      have member := mem_of_getElem? inside
      -- The lookup compares processes, so the entry is the one of the target.
      have same : wPid = pid := keyed.pid_of_eq member rfl equal
      subst same
      obtain ⟨pgid, named⟩ := keyed.keyed _ member
      have keyPid : found.pid = some wPid := congrArg pid named
      refine ⟨.entry (keyed.holds_of_mem member) ?_, removed.2⟩
      apply mem_map.mpr
      exact ⟨(found, wPid, status), mem_filter.mpr ⟨member, by simp [keyPid]⟩, rfl⟩
  | procGroup pgid =>
    obtain ⟨⟨found, _, _⟩, met, same⟩ := Option.map_eq_some_iff.mp selected
    cases same
    obtain ⟨index, position, inside, -⟩ := WaitpidMap.getKeyValue_found met
    refine ⟨.entry (keyed.holds_of_mem (mem_of_getElem? inside)) (mem_inGroup keyed met), ?_⟩
    have result : process.waitpid.remove cmp kernel.pivot ⟨none, some pgid⟩ =
        ⟨process.waitpid.entries.eraseIdx index⟩ := by
      simp only [remove, position]
    rw [result]
    exact keyed.holds_eraseIdx inside

theorem onWaitpid_outcome (wellKeyed : scheme.WellKeyed) (kernel : Kernel) (thisPid : ProcessId)
    (target : WaitpidTarget) (flags : WaitFlags) (reqId : VirtualId) :
    WaitOutcome scheme thisPid target flags reqId
      (scheme.onWaitpid kernel thisPid target flags reqId) := by
  rcases scheme.onWaitpid_cases kernel thisPid target flags reqId with
    ⟨-, errno, failed⟩ | ⟨process, found, admits, received⟩
  · rw [failed]
    exact .failed errno
  · rw [received, receive]
    split
    next key wPid status selected =>
      obtain ⟨takes, remains⟩ := waitSelection_takes (wellKeyed _ _ found) admits selected
      unfold takeStatus
      rw [modify_eq_set found]
      exact .taken found takes remains
    · unfold awaitStatus
      split
      next noHang => exact .nothing noHang
      · rw [modify_eq_set found]
        exact .registered found

end ProcScheme

end EosBase.Procmgr
