import EosBase.Initfs.Scheme

/-!
# Initfs: safety of the reader

An image that was accepted may be corrupt behind its header and its inode table.
No access leaves the slice, and every walk of a directory ends, with one
exception: the length of a directory whose range lies outside of the image is a
sum over an endless row of errors.
-/

namespace EosBase.Initfs

open Redox InodeStruct InitFsScheme InitFs InodeHeader Nat Initfs Iter Option

def Fault.Tame {Value : Type} (served : Served Value) : Prop :=
  served ≠ .error .panic

variable {Value : Type} {errno : Errno}

theorem tame_ok {value : Value} : Fault.Tame (.ok value) :=
  nofun

theorem tame_errno : Fault.Tame (.error (.errno errno) : Served Value) :=
  nofun

/-- The fault of an operation is that of the one it is built on. -/
theorem Fault.Tame.error {First Second : Type} {served : Served First} {fault}
    (tame : Fault.Tame served) (failed : served = .error fault) :
    Fault.Tame (.error fault : Served Second) := by
  intro impossible
  cases impossible
  exact tame failed

def Ends {Value : Type} (operation : Nat → Option (Served Value)) : Prop :=
  ∃ rounds served, operation rounds = some served ∧ Fault.Tame served

/-- An accepted image has its header and its inode table inside. -/
structure InitFs.Accepted (fs : InitFs) (header : Header) : Prop where
  small : fs.base.length < 2 ^ 32
  read : fs.header = .ok header
  table : header.inodeTableOffset + header.inodeCount * InodeHeader.size % 2 ^ 32 ≤
    fs.base.length

variable {fs : InitFs} {header : Header} {value : Option Value} {read : Read Value} {entry : Entry}
  {iter next : Iter} {entries : List DirEntry}

theorem InitFs.new_accepted {base requiredPageSize} (opened : new base requiredPageSize = .ok fs) :
    fs.base = base ∧ ∃ header, fs.Accepted header := by
  simp only [new] at opened
  split at opened
  · cases opened
  next long =>
  split at opened
  · cases opened
  next small =>
  obtain ⟨bytes, found⟩ := slice?_isSome (Nat.zero_le Header.size) (Nat.le_of_not_lt long)
  have header : (⟨base⟩ : InitFs).header = .ok (Header.decode bytes) := by
    simp only [header, found]
    rfl
  simp only [inodeTableSize, header, Except.map, bind, Except.bind] at opened
  split at opened
  · cases opened
  split at opened
  · cases opened
  split at opened
  · cases opened
  split at opened
  · cases opened
  next inside =>
  split at opened
  · cases opened
  cases opened
  have length : base.length % 2 ^ 32 = base.length := Nat.mod_eq_of_lt (by omega)
  refine ⟨rfl, Header.decode bytes, ⟨Nat.lt_of_not_le small, header, ?_⟩⟩
  rw [length] at inside
  exact Nat.le_of_not_lt inside

theorem InitFs.Accepted.inodeTable
    (accepted : fs.Accepted header) : ∃ table, fs.inodeTable = .ok table := by
  have unwrapped : (header.inodeTableOffset +
      header.inodeCount * InodeHeader.size % 2 ^ 32) % 2 ^ 64 =
      header.inodeTableOffset + header.inodeCount * InodeHeader.size % 2 ^ 32 := by
    have small := accepted.small
    have inside := accepted.table
    exact Nat.mod_eq_of_lt (by omega)
  obtain ⟨bytes, found⟩ := slice?_isSome (Nat.le_add_right header.inodeTableOffset _) accepted.table
  refine ⟨records InodeHeader.size InodeHeader.decode bytes, ?_⟩
  simp only [InitFs.inodeTable, InitFs.inodeTableSize, accepted.read, Except.map, bind,
    Except.bind, unwrapped, found]
  rfl

theorem InitFs.Accepted.getInode (accepted : fs.Accepted header) (inodeId : Nat) :
    ∃ found, fs.getInode inodeId = .ok found ∧
      ∀ inode ∈ found, inode.initfs = fs := by
  obtain ⟨table, read⟩ := accepted.inodeTable
  refine ⟨table[inodeId]?.map fun inode => ⟨fs, inodeId, inode⟩, ?_, ?_⟩
  · simp only [InitFs.getInode, read]
    rfl
  · intro inode member
    obtain ⟨entry, _, rfl⟩ := map_eq_some_iff.mp member
    rfl

theorem orInvalid_ne_panic : orInvalid value ≠ .error .panic := by
  cases value with
  | none => nofun
  | some value => nofun

theorem map_ne_panic {Result : Type} {f : Value → Result} (safe : read ≠ .error .panic) :
    read.map f ≠ .error .panic := by
  cases read with
  | ok value => nofun
  | error failure =>
    intro impossible
    cases impossible
    exact safe rfl

theorem InodeStruct.data_ne_panic {inode : InodeStruct} : inode.data ≠ .error .panic :=
  orInvalid_ne_panic

theorem Entry.name_ne_panic : entry.name ≠ .error .panic :=
  orInvalid_ne_panic

theorem orEio_tame (safe : read ≠ .error .panic) : Fault.Tame (orEio read) := by
  intro impossible
  cases read with
  | ok value => cases impossible
  | error failure =>
    cases failure with
    | panic => exact safe rfl
    | invalid => cases impossible

theorem InodeStruct.entries_cases {dir : InodeStruct} :
    (∃ entries, dir.entries = .ok entries ∧ entries.length ≤ dir.initfs.base.length) ∨
      dir.entries = .error .invalid := by
  unfold entries data
  cases found : slice? dir.initfs.base dir.inode.offset (dir.inode.offset + dir.inode.length) with
  | none => exact .inr rfl
  | some bytes =>
    refine .inl ⟨records DirEntry.size DirEntry.decode bytes, rfl, ?_⟩
    obtain ⟨length, _, inside⟩ := length_of_slice? found
    simp only [records, List.length_map, List.length_range]
    have quotient := div_le_self bytes.length DirEntry.size
    omega

namespace Iter

theorem next_ok (read : iter.dir.entries = .ok entries) :
    iter.next.1 = entries[iter.idx]?.map fun entry => .ok ⟨iter.dir.initfs, entry⟩ := by
  unfold next getEntry
  rw [read]
  cases found : entries[iter.idx]? with
  | none | some => simp [Except.map, orEio, found]

theorem next_invalid (corrupt : iter.dir.entries = .error .invalid) :
    iter.next.1 = some (.error (.errno Errno.EIO)) := by
  unfold next getEntry
  rw [corrupt]
  rfl

def remaining (iter : Iter) : Nat :=
  match iter.dir.entries with
  | .ok entries => entries.length - iter.idx
  | .error _ => 0

theorem remaining_next (small : iter.dir.initfs.base.length < 2 ^ 32)
    (found : iter.next.1 = some (.ok entry)) : iter.next.2.remaining < iter.remaining := by
  rcases entries_cases with ⟨entries, read, bound⟩ | corrupt
  · rw [next_ok read] at found
    obtain ⟨direntry, direntryFound, _⟩ := map_eq_some_iff.mp found
    have inside := (List.getElem?_eq_some_iff.mp direntryFound).1
    have read' : iter.next.2.dir.entries = .ok entries := read
    simp only [remaining, read, read']
    change entries.length - (iter.idx + 1) % 2 ^ 32 < entries.length - iter.idx
    omega
  · rw [next_invalid corrupt] at found
    cases found

theorem next_tame {item} (found : iter.next.1 = some item) : Fault.Tame item := by
  rcases entries_cases with ⟨entries, read, _⟩ | corrupt
  · rw [next_ok read] at found
    obtain ⟨entry, _, rfl⟩ := map_eq_some_iff.mp found
    exact tame_ok
  · rw [next_invalid corrupt] at found
    cases found
    exact tame_errno

theorem remaining_le (iter : Iter) : iter.remaining ≤ iter.dir.initfs.base.length := by
  unfold remaining
  rcases entries_cases with ⟨entries, read, bound⟩ | corrupt
  · rw [read]
    exact (sub_le _ _).trans bound
  · rw [corrupt]
    exact zero_le _

end Iter

/-- A round over the entries goes on after one of them, or ends tamely. -/
def Visits {State Result : Type} (iterOf : State → Iter) (reads : Prop) (iter : Iter) :
    Turn State (Served Result) → Prop
  | .again next => iterOf next = iter.next.2 ∧ reads
  | .done served => Fault.Tame served

theorem loop_entries_ends {State Result : Type} {body : State → Turn State (Served Result)}
    {dir} (small : dir.initfs.base.length < 2 ^ 32) (iterOf : State → Iter)
    (visits : ∀ state, (iterOf state).dir = dir → Visits iterOf
      (∃ entry, (iterOf state).next.1 = some (.ok entry)) (iterOf state) (body state))
    {state} (starts : (iterOf state).dir = dir) {rounds}
    (enough : dir.initfs.base.length < rounds) :
    ∃ served, loop body rounds state = some served ∧ Fault.Tame served := by
  have ended := @loop_ends _ _ body (fun state => (iterOf state).dir = dir)
    (fun state => (iterOf state).remaining) ?_ rounds state starts ?_
  · obtain ⟨served, last, holds, round, played⟩ := ended
    have tame := visits last holds
    rw [round] at tame
    exact ⟨served, played, tame⟩
  · intro state next holds round
    have visited := visits state holds
    rw [round] at visited
    obtain ⟨moved, entry, found⟩ := visited
    constructor
    · rw [moved]
      exact holds
    · rw [moved]
      exact remaining_next (by rwa [holds]) found
  · have bound := (iterOf state).remaining_le
    rw [starts] at bound
    omega

theorem findTurn_visits {component iter} :
    Visits id (∃ entry, iter.next.1 = some (.ok entry)) iter (findTurn component iter) := by
  unfold findTurn
  split
  · exact tame_errno
  next item rest came =>
  split
  next fault => exact (next_tame (show iter.next.1 = _ by rw [came])).error rfl
  next entry =>
  split
  next fault failed => exact (orEio_tame Entry.name_ne_panic).error failed
  split
  · exact tame_ok
  · rw [came]
    exact ⟨by rw [came]; rfl, entry, rfl⟩

variable {Buffer : Type} {push : Buffer → List UInt8 → Nat → Except Errno Buffer}

theorem dentsTurn_visits {state} :
    Visits Prod.fst (∃ entry, state.1.next.1 = some (.ok entry)) state.1
      (dentsTurn push state) := by
  unfold dentsTurn
  split
  · exact tame_ok
  next fault rest came => exact (next_tame (show state.1.next.1 = _ by rw [came])).error rfl
  next entry rest came =>
  split
  next fault failed => exact (orEio_tame Entry.name_ne_panic).error failed
  split
  · split
    · exact tame_errno
    · rw [came]
      exact ⟨by rw [came], entry, rfl⟩
  · exact tame_errno

theorem lenTurn_visits (state : Iter × Nat) :
    Visits Prod.fst (state.1.next.1 ≠ none) state.1 (lenTurn state) := by
  unfold lenTurn
  split
  · exact tame_ok
  next item rest came =>
  split
  · rw [came]
    exact ⟨by rw [came], by simp⟩
  · rw [came]
    exact ⟨by rw [came], by simp⟩
  next panicked =>
  have tame := next_tame (show state.1.next.1 = _ by rw [came])
  cases item with
  | error fault =>
    cases panicked
    exact (tame rfl).elim
  | ok entry => exact (orEio_tame Entry.name_ne_panic panicked).elim

theorem orErrno_tame : Fault.Tame (orErrno errno value) := by
  cases value with
  | none => exact tame_errno
  | some value => exact tame_ok

namespace InitFs.Accepted

section

variable (accepted : fs.Accepted header) {scheme : InitFsScheme}

include accepted

theorem getInode_tame {inodeId} : Fault.Tame (Initfs.getInode fs inodeId) ∧
      ∀ inode, Initfs.getInode fs inodeId = .ok inode →
        inode.initfs = fs ∧ fs.getInode inodeId = .ok (some inode) := by
  obtain ⟨found, read, belongs⟩ := accepted.getInode inodeId
  unfold Initfs.getInode
  rw [read]
  refine ⟨orErrno_tame, ?_⟩
  intro inode served
  cases found with
  | none => cases served
  | some other =>
    cases served
    exact ⟨belongs _ rfl, rfl⟩

theorem directory_tame {current} : Fault.Tame (directory fs current) ∧
      ∀ dir, directory fs current = .ok dir → dir.initfs = fs := by
  obtain ⟨tame, belongs⟩ := accepted.getInode_tame
  unfold directory
  cases served : Initfs.getInode fs current with
  | error fault =>
    rw [served] at tame
    refine ⟨tame, ?_⟩
    intro dir impossible
    cases impossible
  | ok inode =>
    have inside := (belongs inode served).1
    simp only [Except.bind, kind]
    cases inode.ty with
    | none => exact ⟨tame_errno, fun dir impossible => by cases impossible⟩
    | some ty =>
      cases ty with
      | dir =>
        refine ⟨tame_ok, ?_⟩
        rintro dir ⟨⟩
        exact inside
      | _ => exact ⟨tame_errno, fun dir impossible => by cases impossible⟩

theorem lookup_ends {steps} (components : List (List UInt8)) (current : Nat)
    (enough : components.length < steps) :
    ∃ served, lookup fs (fs.base.length + 1) steps components current = some served ∧
      Fault.Tame served := by
  induction steps generalizing components current with
  | zero => exact (not_lt_zero _ enough).elim
  | succ steps ih =>
    cases components with
    | nil => exact ⟨.ok current, rfl, tame_ok⟩
    | cons component rest =>
      have shorter : rest.length < steps := by simpa using enough
      simp only [lookup]
      split
      · exact ih rest current shorter
      split
      · apply ih
        rw [List.length_dropLast]
        omega
      obtain ⟨tame, belongs⟩ := accepted.directory_tame
      split
      next fault failed => exact ⟨.error fault, rfl, tame.error failed⟩
      next dir found =>
      have same := belongs dir found
      obtain ⟨served, played, servedTame⟩ := @loop_entries_ends _ _ (findTurn component) dir
        (same ▸ accepted.small) id (fun iter _ => findTurn_visits)
        ⟨dir, 0⟩ rfl (fs.base.length + 1) (same ▸ lt_succ_self _)
      rw [played]
      cases served with
      | error fault => exact ⟨.error fault, rfl, servedTame⟩
      | ok inode => exact ih rest inode shorter

theorem resolve_ends (mounted : scheme.fs = fs) {path} :
    Ends fun rounds => scheme.resolve rounds path := by
  have root : fs.rootInode = .ok header.rootInode := by
    simp only [rootInode, accepted.read]
    rfl
  obtain ⟨served, looked, tame⟩ := accepted.lookup_ends
    (components path) header.rootInode (lt_succ_self _)
  refine ⟨fs.base.length + 1, served, ?_, tame⟩
  simp only [resolve, mounted, root, orEio]
  exact looked

theorem asNode_tame {id} : Fault.Tame ((scheme.asNode id).bind (Initfs.getInode fs)) ∧
      ∀ inode, (scheme.asNode id).bind (Initfs.getInode fs) = .ok inode →
        inode.initfs = fs ∧ ∃ inodeId, fs.getInode inodeId = .ok (some inode) := by
  unfold asNode
  split
  next inodeId _ _ =>
    obtain ⟨tame, belongs⟩ := accepted.getInode_tame
    refine ⟨tame, ?_⟩
    intro inode served
    exact ⟨(belongs inode served).1, inodeId, (belongs inode served).2⟩
  · refine ⟨tame_errno, ?_⟩
    intro inode impossible
    cases impossible

theorem getdents_ends (mounted : scheme.fs = fs) {id buf opaqueOffset} :
    Ends fun rounds => scheme.getdents push rounds id buf opaqueOffset := by
  obtain ⟨tame, belongs⟩ := accepted.asNode_tame
  unfold Ends getdents
  rw [mounted]
  split
  · exact ⟨0, .ok buf, rfl, tame_ok⟩
  split
  next fault failed => exact ⟨0, .error fault, rfl, tame.error failed⟩
  next inode served =>
  cases kind : inode.kind with
  | dir dir =>
    have same : dir.initfs = fs := by
      have inside := (belongs inode served).1
      unfold InodeStruct.kind at kind
      split at kind <;> cases kind
      exact inside
    obtain ⟨result, played, resultTame⟩ := @loop_entries_ends _ _
      (dentsTurn push) dir (same ▸ accepted.small) Prod.fst
      (fun state _ => dentsTurn_visits)
      (⟨dir, opaqueOffset⟩, 0, buf) rfl (fs.base.length + 1) (same ▸ lt_succ_self _)
    exact ⟨_, result, played, resultTame⟩
  | _ => exact ⟨0, _, rfl, tame_errno⟩

end

end InitFs.Accepted

def InodeStruct.Inside (inode : InodeStruct) : Prop :=
  inode.inode.offset + inode.inode.length ≤ inode.initfs.base.length

theorem InodeStruct.entries_of_inside {dir : InodeStruct} (inside : dir.Inside) :
    ∃ entries, dir.entries = .ok entries := by
  obtain ⟨bytes, found⟩ := slice?_isSome (le_add_right dir.inode.offset _) inside
  refine ⟨records DirEntry.size DirEntry.decode bytes, ?_⟩
  simp only [entries, data, found]
  rfl

theorem InodeStruct.entries_of_outside {dir : InodeStruct} (outside : ¬ dir.Inside) :
    dir.entries = .error .invalid := by
  simp only [entries, data, slice?_eq_none (Nat.lt_of_not_le outside)]
  rfl

theorem lenTurn_ends {dir} (small : dir.initfs.base.length < 2 ^ 32) (inside : dir.Inside) :
    ∃ served, loop lenTurn (dir.initfs.base.length + 1) (⟨dir, 0⟩, 0) = some served ∧
      Fault.Tame served := by
  obtain ⟨entries, read⟩ := entries_of_inside inside
  refine @loop_entries_ends _ _ lenTurn dir small Prod.fst ?_ (⟨dir, 0⟩, 0) rfl _ (lt_succ_self _)
  intro state holds
  have visits := lenTurn_visits state
  cases round : lenTurn state with
  | done served => rwa [round] at visits
  | again next =>
  rw [round] at visits
  refine ⟨visits.1, ?_⟩
  have came := visits.2
  rw [next_ok (holds ▸ read)] at came ⊢
  obtain ⟨entry, found⟩ := ne_none_iff_exists'.mp came
  obtain ⟨direntry, direntryFound, equality⟩ := map_eq_some_iff.mp found
  exact ⟨_, found.trans (congrArg some equality.symm)⟩

theorem lenTurn_never_ends {dir} (outside : ¬ dir.Inside) {rounds} :
    loop lenTurn rounds (⟨dir, 0⟩, 0) = none := by
  refine @loop_never_ends _ _ lenTurn (fun state => state.1.dir = dir) ?_ (⟨dir, 0⟩, 0) rfl rounds
  intro state holds
  have came : state.1.next.1 = some (.error (.errno Errno.EIO)) :=
    next_invalid (holds ▸ entries_of_outside outside)
  refine ⟨(state.1.next.2, state.2 + 0), ?_, holds⟩
  unfold lenTurn
  generalize state.1.next = next at came ⊢
  obtain ⟨item, rest⟩ := next
  cases came
  rfl

structure ReaderSafe (fs : InitFs) : Prop where
  getInode : ∀ inodeId, ∃ found, fs.getInode inodeId = .ok found
  data : ∀ inodeId inode, fs.getInode inodeId = .ok (some inode) → inode.data ≠ .error .panic
  entryCount : ∀ inodeId dir, fs.getInode inodeId = .ok (some dir) →
    dir.entryCount ≠ .error .panic
  getEntry : ∀ inodeId dir idx, fs.getInode inodeId = .ok (some dir) →
    dir.getEntry idx ≠ .error .panic
  name : ∀ inodeId dir idx entry, fs.getInode inodeId = .ok (some dir) →
    dir.getEntry idx = .ok (some entry) → entry.name ≠ .error .panic
  resolve : ∀ (scheme : InitFsScheme) path, scheme.fs = fs →
    Ends fun rounds => scheme.resolve rounds path
  getdents : ∀ (scheme : InitFsScheme) (Buffer : Type)
    (push : Buffer → List UInt8 → Nat → Except Errno Buffer) id buf opaqueOffset,
    scheme.fs = fs → Ends fun rounds => scheme.getdents push rounds id buf opaqueOffset
  fsize : ∀ (scheme : InitFsScheme) id, scheme.fs = fs →
    Ends fun rounds => scheme.fsize rounds id

/-- The reader keeps its promises for an accepted image exactly if the ranges of
its directories lie inside of it. -/
theorem reader_safe_iff {base : List UInt8} {requiredPageSize : Option Nat} {fs : InitFs}
    (opened : new base requiredPageSize = .ok fs) :
    ReaderSafe fs ↔ ∀ inodeId dir, fs.getInode inodeId = .ok (some dir) →
      dir.ty = some .dir → dir.inode.offset + dir.inode.length ≤ base.length := by
  obtain ⟨sameBase, header, accepted⟩ := new_accepted opened
  have belongs : ∀ inodeId inode, fs.getInode inodeId = .ok (some inode) → inode.initfs = fs := by
    intro inodeId inode read
    obtain ⟨found, readAgain, inside⟩ := accepted.getInode inodeId
    cases read.symm.trans readAgain
    exact inside inode rfl
  constructor
  · intro safe inodeId dir read isDir
    by_contra outside
    -- A handle to the directory makes `fsize` diverge.
    obtain ⟨rounds, served, ended, _⟩ := safe.fsize
      ⟨Table.empty.insert 0 (.node inodeId []), 0, fs⟩ 0 rfl
    have node : getInode fs inodeId = .ok dir := by
      simp only [getInode, read]
      rfl
    have opened : (asNode ⟨Table.empty.insert 0 (.node inodeId []), 0, fs⟩ 0).bind
        (getInode fs) = .ok dir := by
      exact node
    have kind : dir.kind = .dir dir := by
      simp only [kind, isDir]
    have outside' : ¬ dir.Inside := by
      rw [InodeStruct.Inside, belongs inodeId dir read, sameBase]
      exact outside
    simp only [fsize, opened, inodeLen, kind, lenTurn_never_ends outside'] at ended
    cases ended
  · intro inside
    refine ⟨?_, ?_, ?_, ?_, ?_, ?_, ?_, ?_⟩
    · intro inodeId
      obtain ⟨found, read, _⟩ := accepted.getInode inodeId
      exact ⟨found, read⟩
    · intro inodeId inode _
      exact data_ne_panic
    · intro inodeId dir _
      exact map_ne_panic (map_ne_panic data_ne_panic)
    · intro inodeId dir idx _
      exact map_ne_panic (map_ne_panic data_ne_panic)
    · intro inodeId dir idx entry _ _
      exact Entry.name_ne_panic
    · intro scheme path mounted
      exact accepted.resolve_ends mounted
    · intro scheme Buffer push id buf opaqueOffset mounted
      exact accepted.getdents_ends mounted
    · intro scheme id mounted
      obtain ⟨tame, found⟩ := accepted.asNode_tame
      unfold Ends fsize
      rw [mounted]
      split
      next fault failed => exact ⟨0, .error fault, rfl, tame.error failed⟩
      next inode served =>
      obtain ⟨same, inodeId, read⟩ := found inode served
      have dataTame : Fault.Tame ((orEio inode.data).map List.length) := by
        cases data : orEio inode.data with
        | ok bytes => exact tame_ok
        | error fault => exact (orEio_tame data_ne_panic).error data
      unfold inodeLen kind
      cases type : inode.ty with
      | none => exact ⟨0, _, rfl, tame_errno⟩
      | some ty =>
        cases ty with
        | dir =>
          have range : inode.Inside := by
            rw [InodeStruct.Inside, same, sameBase]
            exact inside inodeId inode read type
          obtain ⟨result, played, resultTame⟩ :=
            lenTurn_ends (same ▸ accepted.small) range
          exact ⟨_, result, played, resultTame⟩
        | _ => exact ⟨0, _, rfl, dataTame⟩

/-- An image with one inode, a directory with this range. -/
def directoryImage (length offset : Nat) : List UInt8 :=
  Header.encode ⟨magic, Header.size, Header.size + InodeHeader.size, 4096, 0, 1, 0⟩ ++
    encode ⟨InodeType.dir.toNat, length, offset⟩

/-- An image whose root directory has the entries `a` and `b`. -/
def pairImage : List UInt8 :=
  directoryImage 16 46 ++ DirEntry.encode ⟨0, 1, 62⟩ ++ DirEntry.encode ⟨0, 1, 63⟩ ++ [0x61, 0x62]

theorem reader_safe_pair : ∃ fs, new pairImage (some 4096) = .ok fs ∧ ReaderSafe fs := by
  have opened : new pairImage (some 4096) = .ok ⟨pairImage⟩ := rfl
  refine ⟨_, opened, (reader_safe_iff opened).mpr ?_⟩
  intro inodeId dir read _
  cases inodeId with
  | zero =>
    have root : (⟨pairImage⟩ : InitFs).getInode 0 =
        .ok (some ⟨⟨pairImage⟩, 0, ⟨2, 16, 46⟩⟩) := rfl
    cases root.symm.trans read
    decide
  | succ inodeId =>
    have missing : (⟨pairImage⟩ : InitFs).getInode (inodeId + 1) = .ok none := rfl
    cases missing.symm.trans read

/-- The length of a root directory behind the end of the image is never found. -/
theorem directory_length_hangs : ∃ fs, new (directoryImage 8 4096) (some 4096) = .ok fs ∧
    ∀ rounds, fsize ⟨Table.empty.insert 1 (.node 0 []), 1, fs⟩ rounds 1 = none := by
  refine ⟨⟨directoryImage 8 4096⟩, rfl, ?_⟩
  intro rounds
  have outside : ¬ InodeStruct.Inside ⟨⟨directoryImage 8 4096⟩, 0, ⟨2, 8, 4096⟩⟩ := by
    change ¬ 4096 + 8 ≤ (directoryImage 8 4096).length
    decide
  exact lenTurn_never_ends outside

end EosBase.Initfs
