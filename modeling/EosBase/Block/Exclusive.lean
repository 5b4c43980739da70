import EosBase.Block.Scheme

/-!
# A disk is opened once

Two handles on one disk are handles on different partitions of it.  `checkLocks`
refuses exactly the handles that would break this.  A request to open a disk has
no result when its path cannot be cut where the position of the first `p`, counted
in characters, is taken for a position in bytes.
-/

namespace EosBase.Block

open Redox Str Option DiskSchemeInner HandleMap List

variable {Device : Type}

def Handle.disk? : Handle → Option UInt32
  | disk number => some number
  | partition number _ => some number
  | _ => none

def Compatible (handle other : Handle) : Prop :=
  ∀ number, handle.disk? = some number → other.disk? = some number →
    ∃ part otherPart, handle = .partition number part ∧ other = .partition number otherPart ∧
      part ≠ otherPart

def Exclusive (handles : HandleMap Handle) : Prop :=
  ∀ id otherId handle other, id ≠ otherId → handles.get? id = some handle →
    handles.get? otherId = some other → Compatible handle other

variable {handle : Handle} {other : Handle}

theorem Compatible.symm (compatible : Compatible handle other) : Compatible other handle := by
  intro number referred otherwise
  obtain ⟨part, otherPart, first, second, different⟩ := compatible number otherwise referred
  exact ⟨otherPart, part, second, first, different.symm⟩

variable {handles : HandleMap Handle}

theorem exclusive_insert_iff (exclusive : Exclusive handles) : Exclusive (handles.insert handle).1 ↔
      ∀ id other, handles.get? id = some other → Compatible handle other := by
  constructor
  · intro kept id other found
    have old : id ≠ handles.nextId := (lt_nextId found).ne
    apply kept handles.nextId id handle other old.symm
    · rw [get?_insert, if_pos rfl]
    · rw [get?_insert, if_neg old, found]
  · intro compatible id otherId first second different found otherFound
    rw [get?_insert] at found otherFound
    split at found
    next new =>
      cases found
      rw [if_neg (new ▸ different.symm)] at otherFound
      exact compatible otherId second otherFound
    next old =>
    split at otherFound
    next new =>
      cases otherFound
      exact (compatible id first found).symm
    next => exact exclusive id otherId first second different found otherFound

theorem exclusive_remove (exclusive : Exclusive handles) {id} :
    Exclusive (handles.remove id).1 := by
  intro first second handle other different found otherFound
  rw [get?_remove] at found otherFound
  split at found
  · cases found
  · split at otherFound
    · cases otherFound
    · exact exclusive first second handle other different found otherFound

def Handle.onDisk (number : UInt32) : Option UInt32 → Handle
  | none => .disk number
  | some part => .partition number part

theorem disk?_onDisk {number part} : (Handle.onDisk number part).disk? = some number := by
  cases part <;> rfl

variable {number : UInt32}

/-- `conflicts` recognises the handles that may not be open at the same time. -/
theorem conflicts_eq_false_iff {number part} : conflicts number part other = false ↔
      Compatible (.onDisk number part) other := by
  by_cases same : other.disk? = some number
  swap
  · refine ⟨fun _ referred here there => ?_, fun _ => ?_⟩
    · rw [disk?_onDisk] at here
      exact absurd (there.trans here.symm) same
    cases other with
    | list entries => rfl
    | schemeRoot => rfl
    | disk second => exact beq_false_of_ne fun equal => same (congrArg some equal.symm)
    | partition second otherPart =>
      apply Bool.and_eq_false_imp.mpr
      intro equal
      exact absurd (congrArg some (eq_of_beq equal).symm) same
  · cases other with
    | list entries => cases same
    | schemeRoot => cases same
    | disk second =>
      cases same
      constructor
      · intro free
        exact absurd rfl (ne_of_beq_false free)
      · intro compatible
        obtain ⟨_, _, _, impossible, _⟩ := compatible number disk?_onDisk rfl
        cases impossible
    | partition second otherPart =>
      cases same
      cases part with
      | none =>
        constructor
        · intro free
          simp [conflicts] at free
        · intro compatible
          obtain ⟨_, _, impossible, _⟩ := compatible number rfl rfl
          cases impossible
      | some part =>
        simp only [conflicts, beq_self_eq_true, Bool.true_and, beq_eq_false_iff_ne]
        constructor
        · rintro different referred ⟨⟩ _
          exact ⟨part, otherPart, rfl, rfl, different⟩
        · intro compatible
          obtain ⟨_, _, first, second, different⟩ := compatible number rfl rfl
          cases first
          cases second
          exact different

variable {flags : Nat} {buffer : List UInt8} {offset : UInt64} {path : List Char}

namespace DiskSchemeInner

variable {this : DiskSchemeInner Device}

section

variable (exclusive : Exclusive this.handles)

include exclusive

/-- `checkLocks` admits the handles that keep the disks exclusive. -/
theorem checkLocks_iff {disk} (part : Option UInt32) : this.checkLocks disk part = .ok () ↔
      Exclusive (this.handles.insert (.onDisk disk part)).1 := by
  rw [exclusive_insert_iff exclusive, checkLocks]
  split
  next locked =>
    obtain ⟨id, other, found, conflict⟩ := (Table.any_eq_true_iff _ _).mp locked
    constructor
    · intro refused
      cases refused
    · intro free
      cases conflict.symm.trans ((conflicts_eq_false_iff).mpr (free id other found))
  next free =>
  refine ⟨fun _ id other found => ?_, fun _ => rfl⟩
  apply (conflicts_eq_false_iff).mp
  by_contra conflict
  rw [Bool.not_eq_false] at conflict
  exact free ((Table.any_eq_true_iff _ _).mpr ⟨id, other, found, conflict⟩)

theorem openDisk_exclusive
    (opened : this.openDisk path = .ok handle) : Exclusive (this.handles.insert handle).1 := by
  obtain ⟨nsid, _, opened⟩ := ok_of_bind opened
  obtain ⟨_, _, opened⟩ := ok_of_bind opened
  obtain ⟨_, free, opened⟩ := ok_of_bind opened
  cases opened
  exact (checkLocks_iff exclusive none).mp free

theorem openPartition_exclusive {disk part} (opened : this.openPartition disk part = .ok handle) :
    Exclusive (this.handles.insert handle).1 := by
  obtain ⟨nsid, _, opened⟩ := ok_of_bind opened
  obtain ⟨partNum, _, opened⟩ := ok_of_bind opened
  obtain ⟨_, _, opened⟩ := ok_of_bind opened
  obtain ⟨_, _, opened⟩ := ok_of_bind opened
  obtain ⟨_, _, opened⟩ := ok_of_bind opened
  obtain ⟨_, free, opened⟩ := ok_of_bind opened
  cases opened
  exact (checkLocks_iff exclusive (some partNum)).mp free

theorem handleFor_exclusive :
    Ends (fun answer => ∀ handle, answer = .ok handle → Exclusive (this.handles.insert handle).1)
      (this.handleFor path flags) := by
  rw [handleFor]
  split
  · split
    · rintro _ ⟨⟩
      apply (exclusive_insert_iff exclusive).mpr
      intro _ _ _ number impossible
      cases impossible
    · exact nofun
  · split
    · exact fun _ => openDisk_exclusive exclusive
    split
    · trivial
    split
    · exact nofun
    · split
      · trivial
      · exact fun _ => openPartition_exclusive exclusive

theorem openat_exclusive {dirfd uid} :
    Ends (fun opened => Exclusive opened.1.handles) (this.openat dirfd path flags uid) := by
  rw [openat]
  split
  · exact exclusive
  split
  · exact exclusive
  split
  · exact exclusive
  refine .map ((handleFor_exclusive exclusive).imp ?_)
  intro answer admitted
  cases answer with
  | error => exact exclusive
  | ok handle => exact admitted handle rfl

end

variable [Disk Device]

theorem onDisk_handles {transfer} : Ends (fun outcome => outcome.state.handles = this.handles)
      (this.onDisk number buffer offset transfer) := by
  rw [onDisk]
  split
  · exact rfl
  split
  · trivial
  · exact .map (.intro fun _ => rfl)

variable {id : Nat}

theorem read_handles : Ends (fun outcome => outcome.state.handles = this.handles)
    (this.read id buffer offset) := by
  rw [read]
  split
  · exact rfl
  · exact rfl
  · exact onDisk_handles
  · exact onDisk_handles
  · exact rfl

theorem write_handles : Ends (fun outcome => outcome.state.handles = this.handles)
    (this.write id buffer offset) := by
  rw [write]
  split
  · exact rfl
  · exact rfl
  · exact onDisk_handles
  · exact onDisk_handles
  · exact rfl

end DiskSchemeInner

theorem exclusive_new {disks : Table UInt32 (DiskWrapper Device)} :
    Exclusive (new disks).handles := by
  apply (exclusive_insert_iff _).mpr
  · intro _ _ absent
    cases absent
  · intro _ _ _ _ _ absent
    cases absent

section Runs

variable [Disk Device]

variable {disks : Table UInt32 (DiskWrapper Device)}

theorem step_exclusive {before after request output} (exclusive : Exclusive before.handles)
    (stepped : (blocks disks).step before request = some (after, output)) :
    Exclusive after.handles := by
  cases request with
  | openat dirfd path flags uid =>
    obtain ⟨result, _, opened⟩ := of_replied stepped
    exact (openat_exclusive exclusive).of_eq opened
  | read id buffer offset =>
    obtain ⟨outcome, done, reply⟩ := map_eq_some_iff.mp stepped
    cases reply
    rwa [read_handles.of_eq done]
  | write id buffer offset =>
    obtain ⟨outcome, done, reply⟩ := map_eq_some_iff.mp stepped
    cases reply
    rwa [write_handles.of_eq done]
  | onClose id =>
    cases stepped
    exact exclusive_remove exclusive

theorem exclusive_reachable {this} (reached : (blocks disks).Reachable this) :
    Exclusive this.handles := by
  apply reached.invariant (motive := fun this => Exclusive this.handles) exclusive_new
  intro before request after output _ exclusive _ stepped
  exact step_exclusive exclusive stepped

end Runs

/-- The path can be cut before and behind the position of its first `p`, where that
position counts characters. -/
def Sliceable (path : List Char) : Prop :=
  ∀ position, path.findIdx? (· == 'p') = some position →
    IsCharBoundary path position ∧
      (position + 1 < byteLen path → IsCharBoundary path (position + 1))

namespace DiskSchemeInner

variable {this : DiskSchemeInner Device}

theorem handleFor_ne_none_iff {path flags} : this.handleFor path flags ≠ none ↔ Sliceable path := by
  rw [handleFor]
  split
  next empty =>
    subst empty
    refine ⟨fun _ position absent => (nomatch absent), fun _ => ?_⟩
    split <;> exact some_ne_none _
  next =>
  split
  next absent =>
    refine ⟨fun _ position found => ?_, fun _ => some_ne_none _⟩
    cases absent.symm.trans found
  next position found =>
  have only : ∀ {other}, path.findIdx? (· == 'p') = some other → other = position :=
    fun other => some.inj (other.symm.trans found)
  split
  next inside =>
    refine ⟨fun panics => absurd rfl panics, fun sliceable => ?_⟩
    have cut := (sliceable position found).1
    rw [IsCharBoundary, inside] at cut
    cases cut
  next disk rest cut =>
  have first : IsCharBoundary path position := by
    rw [IsCharBoundary, cut]
    rfl
  split
  next short =>
    refine ⟨fun _ other again => ?_, fun _ => some_ne_none _⟩
    rw [only again]
    exact ⟨first, fun long => absurd long (Nat.not_lt_of_le short)⟩
  next long =>
  split
  next inside =>
    refine ⟨fun panics => absurd rfl panics, fun sliceable => ?_⟩
    have cut := (sliceable position found).2 (Nat.lt_of_not_le long)
    rw [IsCharBoundary, inside] at cut
    cases cut
  next cut =>
  refine ⟨fun _ other again => ?_, fun _ => some_ne_none _⟩
  rw [only again]
  refine ⟨first, fun _ => ?_⟩
  rw [IsCharBoundary, cut]
  rfl

theorem openat_ne_none_iff (dirfd : Nat) {path flags uid} :
    this.openat dirfd path flags uid ≠ none ↔
      (this.handles.get? dirfd = some .schemeRoot → uid = 0 →
        Sliceable (trimMatches '/' path)) := by
  rw [openat]
  split
  next missing =>
    refine ⟨fun _ root => ?_, fun _ => some_ne_none _⟩
    rw [HandleMap.get, root] at missing
    cases missing
  next directory found =>
  have held := HandleMap.get_ok found
  split
  next other =>
    refine ⟨fun _ root => ?_, fun _ => some_ne_none _⟩
    exact absurd (some.inj (held.symm.trans root)) other
  next root =>
  rw [not_not] at root
  subst root
  split
  next user => exact ⟨fun _ _ root => absurd root user, fun _ => some_ne_none _⟩
  next isRoot =>
  rw [not_not] at isRoot
  rw [ne_eq, map_eq_none_iff, ← ne_eq, handleFor_ne_none_iff]
  exact ⟨fun sliceable _ _ => sliceable, fun sliceable => sliceable held isRoot⟩

theorem openat_root {dirfd} (root : this.handles.get? dirfd = some .schemeRoot)
    (bare : '/' ∉ path) (named : this.handleFor path flags = some (.ok handle)) :
    this.openat dirfd path flags 0 = some ({ this with handles := (this.handles.insert handle).1 },
        .ok (this.handles.insert handle).2) := by
  have found : this.handles.get dirfd = .ok .schemeRoot := by
    rw [HandleMap.get, root]
    rfl
  rw [openat, found]
  simp only [ne_eq, not_true_eq_false, if_false, trimMatches_of_not_mem bare, named]
  rfl

variable {wrapper : DiskWrapper Device}

theorem handleFor_disk (exclusive : Exclusive this.handles) {flags}
    (present : this.disks.get? number = some wrapper)
    (kept : Exclusive (this.handles.insert (.disk number)).1) :
    this.handleFor (decimal number) flags = some (.ok (.disk number)) := by
  have nonempty : decimal number ≠ [] := Nat.toDigits_ne_nil
  have free := (checkLocks_iff exclusive none).mpr kept
  rw [handleFor, if_neg nonempty, findIdx?_decimal (by decide)]
  simp only [openDisk, parseU32_decimal, okOr, bind, Except.bind, present, free]
  rfl

theorem handleFor_partition (exclusive : Exclusive this.handles) {part table entry flags}
    (present : this.disks.get? number = some wrapper) (read : wrapper.pt = some table)
    (listed : table.partitions[part.toNat]? = some entry)
    (kept : Exclusive (this.handles.insert (.partition number part)).1) :
    this.handleFor (decimal number ++ 'p' :: decimal part) flags =
      some (.ok (.partition number part)) := by
  have nonempty : decimal number ++ 'p' :: decimal part ≠ [] :=
    append_ne_nil_of_right_ne_nil _ (cons_ne_nil _ _)
  have position : (decimal number ++ 'p' :: decimal part).findIdx? (· == 'p') =
      some (decimal number).length := by
    rw [findIdx?_append, findIdx?_decimal (by decide), findIdx?_cons]
    simp
  have narrow : ∀ c ∈ decimal number, c.utf8Size = 1 := by
    intro c written
    exact utf8Size_of_isDigit (isDigit_of_mem_decimal written)
  have before := splitAtByte_append _ ('p' :: decimal part) narrow
  have behind : splitAtByte (decimal number ++ 'p' :: decimal part) ((decimal number).length + 1) =
      some (decimal number ++ ['p'], decimal part) := by
    have longer := splitAtByte_append (decimal number ++ ['p']) (decimal part) (by
      intro c written
      rcases mem_append.mp written with digit | last
      · exact narrow c digit
      · rw [mem_singleton] at last
        subst last
        decide)
    rwa [append_assoc, length_append] at longer
  have long : ¬ byteLen (decimal number ++ 'p' :: decimal part) ≤ (decimal number).length + 1 := by
    have total := length_le_byteLen (decimal number ++ 'p' :: decimal part)
    have digits : 0 < (decimal part).length := Nat.length_toDigits_pos
    rw [length_append, length_cons] at total
    omega
  have free := (checkLocks_iff exclusive (some part)).mpr kept
  rw [handleFor, if_neg nonempty, position]
  simp only [before, if_neg long, behind, openPartition, parseU32_decimal, okOr, bind,
    Except.bind, present, read, listed, free]
  rfl

end DiskSchemeInner

/-- In every state of the scheme the disks are exclusive, root opens every disk and
partition that keeps them so, and opening panics only on a path that cannot be cut. -/
theorem disks_exclusive [Disk Device] {disks : Table UInt32 (DiskWrapper Device)}
    {this : DiskSchemeInner Device} (reached : (blocks disks).Reachable this) :
    Exclusive this.handles ∧
    (∀ dirfd flags number wrapper, this.handles.get? dirfd = some .schemeRoot →
      this.disks.get? number = some wrapper →
      Exclusive (this.handles.insert (.disk number)).1 →
      this.openat dirfd (decimal number) flags 0 =
        some ({ this with handles := (this.handles.insert (.disk number)).1 },
          .ok (this.handles.insert (.disk number)).2)) ∧
    (∀ dirfd flags number part wrapper table entry, this.handles.get? dirfd = some .schemeRoot →
      this.disks.get? number = some wrapper → wrapper.pt = some table →
      table.partitions[part.toNat]? = some entry →
      Exclusive (this.handles.insert (.partition number part)).1 →
      this.openat dirfd (decimal number ++ 'p' :: decimal part) flags 0 =
        some ({ this with handles := (this.handles.insert (.partition number part)).1 },
          .ok (this.handles.insert (.partition number part)).2)) ∧
    ∀ dirfd path flags uid, this.openat dirfd path flags uid ≠ none ↔
      (this.handles.get? dirfd = some .schemeRoot → uid = 0 →
        Sliceable (trimMatches '/' path)) := by
  have exclusive := exclusive_reachable reached
  refine ⟨exclusive, ?_, ?_, openat_ne_none_iff⟩
  · intro dirfd flags number wrapper root present kept
    apply openat_root root (not_mem_decimal (by decide))
    exact handleFor_disk exclusive present kept
  · intro dirfd flags number part wrapper table entry root present read listed kept
    apply openat_root root
    · intro slash
      rcases mem_append.mp slash with digit | later
      · exact not_mem_decimal (by decide) digit
      · rcases mem_cons.mp later with letter | digit
        · cases letter
        · exact not_mem_decimal (by decide) digit
    · exact handleFor_partition exclusive present read listed kept

theorem disks_exclusive_two_partitions : ∃ this, (blocks twoPartitions).Reachable this ∧
    this.handles.get? 2 = some (.partition 0 0) ∧ this.handles.get? 3 = some (.partition 0 1) ∧
    Exclusive this.handles := by
  have reached := (blocks twoPartitions).reachable_replay [.openat 1 ['0', 'p', '0'] 0 0, .openat
    1 ['0', 'p', '1'] 0 0] (by decide +kernel)
  exact ⟨_, reached, rfl, rfl, (disks_exclusive reached).1⟩

/-- The letter before the `p` is two bytes long, so that its second byte is where the
path is cut. -/
theorem opening_panics : ∃ this, (blocks twoPartitions).Reachable this ∧
    this.handles.get? 1 = some .schemeRoot ∧ this.openat 1 ['é', 'p'] 0 0 = none := by
  refine ⟨(blocks twoPartitions).start, ⟨[], .start⟩, by decide +kernel, ?_⟩
  decide +kernel

end EosBase.Block
