import EosBase.Ramfs.Scheme
import EosBase.Ramfs.Walk

/-!
# What the operations on the file system do

Removing an entry and opening a file are taken apart once, into the cases that the
later arguments need: what was found before anything changed, and how it changed.
-/

namespace EosBase.Ramfs

open Redox Option Table

variable {parentInode flags fcntlFlags inode : Nat} {this : Filesystem} {uid gid : Nat}
  {file : File} {path : Name}

namespace Filesystem

theorem get?_setFile {other} : (this.setFile inode file).files.get? other =
      if other = inode then some file else this.files.get? other :=
  get?_insert _ _ _ _

theorem resolveExceptLast_ok {name}
    (resolved : this.resolveExceptLast path uid gid = some (.ok (parentInode, name))) :
    ∃ parent, this.files.get? parentInode = some parent := by
  obtain ⟨answer, generic, mapped⟩ := map_eq_some_iff.mp resolved
  obtain ⟨inode, same, pair⟩ := ok_of_map mapped
  cases pair
  rw [same] at generic
  rw [resolveGeneric_eq_walk] at generic
  split at generic
  · cases generic
  next root present =>
  obtain ⟨file, found, _⟩ := walk_ok generic present
  exact ⟨file, found⟩

section Removal

structure Takes (this : Filesystem) (path : Name) (uid gid parentInode : Nat) (parent : File)
    (dentries : Table Name Nat) (name : Name) (target : Nat) : Prop where
  resolved : this.resolveExceptLast path uid gid = some (.ok (parentInode, some name))
  found : this.files.get? parentInode = some parent
  allowed : currentPerm parent uid gid &&& 0o2 ≠ 0
  isDirectory : parent.data = .directory dentries
  named : dentries.get? name = some target

/-- An entry cannot be removed in this way: what it stands for is not there, is a file
where a directory is to be removed, or a directory where a file is, or not empty. -/
def Unfit (this : Filesystem) (target : Nat) (directory : Bool) : Prop :=
  match (this.files.get? target).map File.data with
  | none => True
  | some (.file _) => directory = true
  | some (.directory entries) => directory = false ∨ entries.entries ≠ []

inductive Outcome (taken : Filesystem) (parentInode target : Nat) (directory : Bool) :
    Option (Filesystem × Result Unit) → Prop
  | unfit (error : Errno) : Unfit taken target directory →
      Outcome taken parentInode target directory (some (taken, .error error))
  | file (info : File) (bytes : List UInt8) : directory = false →
      taken.files.get? target = some info → info.data = .file bytes →
      Outcome taken parentInode target directory (taken.dropLinks target info 1)
  | directory (info : File) (entries : Table Name Nat) (parent : File) : directory = true →
      taken.files.get? target = some info → info.data = .directory entries →
      entries.entries = [] → taken.files.get? parentInode = some parent →
      Outcome taken parentInode target directory
        (if parent.nlink = 0 then none
        else
          (taken.setFile parentInode { parent with nlink := parent.nlink - 1 }).removeInode
            target true)

variable {taken : Filesystem} {parent : File}

theorem still_directory {target info entries}
    (found : taken.files.get? target = some info) (isDirectory : info.data = .directory entries)
    (present : taken.files.get? parentInode = some parent) :
    ∃ now, (taken.setFile parentInode { parent with nlink := parent.nlink - 1 }).files.get?
      target = some now ∧ now.data = .directory entries := by
  rw [get?_setFile]
  split
  next self =>
    subst self
    cases found.symm.trans present
    exact ⟨_, rfl, isDirectory⟩
  next => exact ⟨info, found, isDirectory⟩

theorem removeTarget_outcome (target : Nat) (directory : Bool)
    (present : taken.files.get? parentInode = some parent) :
    Outcome taken parentInode target directory
      (taken.removeTarget parentInode target directory) := by
  rw [removeTarget]
  cases found : taken.files.get? target with
  | none =>
    have unfit : Unfit taken target directory := by
      rw [Unfit, found]
      trivial
    simp only [map_none, removeInode, found]
    exact .unfit Errno.EIO unfit
  | some info =>
    cases data : info.data with
    | file bytes =>
      simp only [map_some, data, removeInode, found]
      cases directory with
      | false => exact .file info bytes rfl found data
      | true =>
        refine .unfit .EISDIR ?_
        rw [Unfit, found, map_some, data]
    | directory entries =>
      simp only [map_some, data]
      cases directory with
      | false =>
        refine .unfit .EISDIR ?_
        rw [Unfit, found, map_some, data]
        exact Or.inl rfl
      | true =>
        by_cases empty : entries.entries = []
        · rw [if_neg (not_not.mpr empty), present]
          exact .directory info entries parent rfl found data empty present
        rw [if_pos empty]
        refine .unfit .ENOTEMPTY ?_
        rw [Unfit, found, map_some, data]
        exact Or.inr empty

theorem removeDentry_cases (this : Filesystem) (directory : Bool) :
    (∃ parentInode parent dentries name target,
      this.Takes path uid gid parentInode parent dentries name target ∧
        this.removeDentry path uid gid directory =
          (this.takeOut parentInode parent dentries name).removeTarget parentInode target
            directory) ∨
      ((∀ parentInode parent dentries name target,
          ¬ this.Takes path uid gid parentInode parent dentries name target) ∧
        ((this.resolveExceptLast path uid gid = none ∧
            this.removeDentry path uid gid directory = none) ∨
          ∃ error, this.removeDentry path uid gid directory = some (this, .error error))) := by
  rw [removeDentry]
  split
  next panics =>
    refine Or.inr ⟨fun _ _ _ _ _ takes => ?_, Or.inl ⟨panics, rfl⟩⟩
    cases panics.symm.trans takes.resolved
  next error failed =>
    refine Or.inr ⟨fun _ _ _ _ _ takes => ?_, Or.inr ⟨error, rfl⟩⟩
    cases failed.symm.trans takes.resolved
  next root =>
    refine Or.inr ⟨fun _ _ _ _ _ takes => ?_, Or.inr ⟨.EINVAL, rfl⟩⟩
    cases root.symm.trans takes.resolved
  next parentInode name resolved =>
  obtain ⟨parent, found⟩ := resolveExceptLast_ok resolved
  simp only [found]
  by_cases denied : currentPerm parent uid gid &&& 0o2 = 0
  · rw [if_pos denied]
    refine Or.inr ⟨fun _ _ _ _ _ takes => ?_, Or.inr ⟨.EACCES, rfl⟩⟩
    cases resolved.symm.trans takes.resolved
    cases found.symm.trans takes.found
    exact takes.allowed denied
  · rw [if_neg denied]
    cases data : parent.data with
    | file bytes =>
      refine Or.inr ⟨fun _ _ _ _ _ takes => ?_, Or.inr ⟨.ENOTDIR, rfl⟩⟩
      cases resolved.symm.trans takes.resolved
      cases found.symm.trans takes.found
      cases data.symm.trans takes.isDirectory
    | directory dentries =>
      cases named : dentries.get? name with
      | none =>
        refine Or.inr ⟨fun _ _ _ _ _ takes => ?_, Or.inr ⟨.ENOENT, by simp only [named]⟩⟩
        cases resolved.symm.trans takes.resolved
        cases found.symm.trans takes.found
        cases data.symm.trans takes.isDirectory
        cases named.symm.trans takes.named
      | some target =>
        simp only [named]
        exact Or.inl ⟨parentInode, parent, dentries, name, target,
          ⟨resolved, found, denied, data, named⟩, rfl⟩

end Removal

section Opening

def effectiveFlags (flags fcntlFlags : Nat) : Nat :=
  if flags &&& O_CREAT ≠ 0 then flags else flags ||| fcntlFlags

/-- An existing file can be opened with these flags; `data` is what it holds then. -/
structure Opens (this : Filesystem) (path : Name) (flags uid gid inode : Nat) (file : File)
    (data : FileData) : Prop where
  resolved : this.resolve path uid gid = some (.ok inode)
  found : this.files.get? inode = some file
  permitted : checkPermissions flags (currentPerm file uid gid) = .ok ()
  contents : truncated flags file.data = .ok data

structure Creates (this : Filesystem) (path : Name) (flags uid gid parentInode : Nat)
    (name : Name) (inode : File) : Prop where
  asked : flags &&& O_CREAT ≠ 0
  plain : flags &&& O_STAT = 0
  absent : ∃ error, this.resolve path 0 0 = some (.error error)
  resolved : this.resolveExceptLast path uid gid = some (.ok (parentInode, some name))
  numbered : this.lastInodeNumber + 1 < 2 ^ 64
  made : newInode flags uid gid parentInode = .ok inode
  permitted : checkPermissions flags (currentPerm inode uid gid) = .ok ()

inductive Opening (this : Filesystem) (path : Name) (flags fcntlFlags uid gid : Nat) :
    Option (Filesystem × Result Nat) → Prop
  | panics : Opening this path flags fcntlFlags uid gid none
  | refused (error : Errno) (last : Nat) : this.lastInodeNumber ≤ last →
      Opening this path flags fcntlFlags uid gid
        (some ({ this with lastInodeNumber := last }, .error error))
  | opened (inode : Nat) (file : File) (data : FileData) :
      this.Opens path (effectiveFlags flags fcntlFlags) uid gid inode file data →
      Opening this path flags fcntlFlags uid gid
        (some (this.setFile inode { file with data := data, openHandles := file.openHandles + 1 },
          .ok inode))
  | stray (parentInode : Nat) (name : Name) (inode parent : File) (bytes : List UInt8) :
      this.Creates path flags uid gid parentInode name inode →
      (this.withInode inode).files.get? parentInode = some parent → parent.data = .file bytes →
      Opening this path flags fcntlFlags uid gid (some (this.withInode inode, .error Errno.EIO))
  | created (parentInode : Nat) (name : Name) (inode parent : File) (entries : Table Name Nat) :
      this.Creates path flags uid gid parentInode name inode →
      (this.withInode inode).files.get? parentInode = some parent →
      parent.data = .directory entries →
      Opening this path flags fcntlFlags uid gid
        (some ((this.withInode inode).setFile parentInode { parent with
            data := .directory (entries.insertLast name (this.lastInodeNumber + 1)) },
          .ok (this.lastInodeNumber + 1)))

theorem openExisting_opening {effective} (same : effective = effectiveFlags flags fcntlFlags) :
    Opening this path flags fcntlFlags uid gid (this.openExisting path effective uid gid) := by
  rw [openExisting]
  split
  · exact .panics
  next error failed => exact .refused error _ le_rfl
  next inode resolved =>
  split
  · exact .refused Errno.EIO _ le_rfl
  next file found =>
  split
  · exact .refused .ENOTDIR _ le_rfl
  split
  · exact .refused .EISDIR _ le_rfl
  split
  next error _ => exact .refused error _ le_rfl
  next permitted =>
  split
  next error _ => exact .refused error _ le_rfl
  next data contents =>
  subst same
  exact .opened inode file data ⟨resolved, found, permitted, contents⟩

theorem withInode_isSome {name inode}
    (resolved : this.resolveExceptLast path uid gid = some (.ok (parentInode, name))) :
    ∃ parent, (this.withInode inode).files.get? parentInode = some parent := by
  obtain ⟨parent, found⟩ := resolveExceptLast_ok resolved
  rw [withInode, get?_insert]
  split
  · exact ⟨inode, rfl⟩
  · exact ⟨parent, found⟩

theorem linkInto_opening {name inode}
    (creates : this.Creates path flags uid gid parentInode name inode) :
    Opening this path flags fcntlFlags uid gid
      (some ((this.withInode inode).linkInto parentInode name (this.lastInodeNumber + 1))) := by
  obtain ⟨parent, found⟩ := withInode_isSome creates.resolved
  rw [linkInto, found]
  cases data : parent.data with
  | file bytes =>
    simp only [data]
    exact .stray parentInode name inode parent bytes creates found data
  | directory entries =>
    simp only [data]
    exact .created parentInode name inode parent entries creates found data

theorem create_opening (asked : flags &&& O_CREAT ≠ 0) (plain : flags &&& O_STAT = 0)
    (absent : ∃ error, this.resolve path 0 0 = some (.error error)) :
    Opening this path flags fcntlFlags uid gid (this.create path flags uid gid) := by
  rw [create]
  split
  · exact .panics
  next error _ => exact .refused error _ le_rfl
  · exact .refused .EINVAL _ le_rfl
  next parentInode name resolved =>
  split
  · exact .refused .ENFILE _ le_rfl
  next numbered =>
  split
  next error _ => exact .refused error _ (Nat.le_succ _)
  next inode made =>
  split
  next error _ => exact .refused error _ (Nat.le_succ _)
  next permitted =>
  exact linkInto_opening
    ⟨asked, plain, absent, resolved, Nat.lt_of_not_le numbered, made, permitted⟩

theorem openInode_opening (this : Filesystem) (path : Name) (flags fcntlFlags uid gid : Nat) :
    Opening this path flags fcntlFlags uid gid
      (this.openInode path flags fcntlFlags uid gid) := by
  rw [openInode]
  split
  · exact .panics
  next answer resolved =>
  split
  · exact .refused .EEXIST _ le_rfl
  split
  next existing => exact openExisting_opening (if_pos existing.1).symm
  next missing =>
  split
  next asked =>
    split
    · exact .refused .EINVAL _ le_rfl
    next plain =>
    apply create_opening asked (not_not.mp plain)
    cases answer with
    | error error => exact ⟨error, resolved⟩
    | ok inode => exact absurd ⟨asked, rfl⟩ missing
  next unasked => exact openExisting_opening (if_neg unasked).symm

theorem openInode_of_creates {name inode} (fcntlFlags : Nat)
    (creates : this.Creates path flags uid gid parentInode name inode) :
    this.openInode path flags fcntlFlags uid gid =
      some ((this.withInode inode).linkInto parentInode name (this.lastInodeNumber + 1)) := by
  obtain ⟨error, absent⟩ := creates.absent
  have create : this.create path flags uid gid =
      some ((this.withInode inode).linkInto parentInode name (this.lastInodeNumber + 1)) := by
    rw [Filesystem.create, creates.resolved]
    simp only [if_neg (Nat.not_le_of_lt creates.numbered), creates.made, creates.permitted]
  rw [openInode, absent]
  simp only [Except.isOk, Except.toBool, Bool.false_eq_true, and_false, if_false]
  rw [if_pos creates.asked, if_neg (not_not.mpr creates.plain), create]

theorem truncated_cases {data new} (kept : truncated flags data = .ok new) :
    new = data ∨ (opensForWriting flags ∧ ∃ bytes, data = .file bytes ∧ new = .file []) := by
  unfold truncated at kept
  split at kept
  next clears =>
    cases data with
    | file bytes =>
      cases kept
      exact Or.inr ⟨clears.2, bytes, rfl, rfl⟩
    | directory dentries => cases kept
  next =>
  cases kept
  exact Or.inl rfl

theorem newInode_data {parent inode} (made : newInode flags uid gid parent = .ok inode) :
    inode.openHandles = 1 ∧ ((inode.data = .file [] ∧ inode.nlink = 1) ∨
        (inode.data = .directory .empty ∧ inode.nlink = 2)) := by
  unfold newInode at made
  split at made
  · split at made
    · cases made
    · cases made
      exact ⟨rfl, Or.inr ⟨rfl, rfl⟩⟩
  · split at made
    · cases made
    · cases made
      exact ⟨rfl, Or.inl ⟨rfl, rfl⟩⟩

def Fresh (this : Filesystem) : Prop :=
  ∀ inode, this.lastInodeNumber < inode → this.files.get? inode = none

section

variable (fresh : this.Fresh)

include fresh

theorem Fresh.of_some
    (found : this.files.get? inode = some file) : inode ≤ this.lastInodeNumber := by
  by_contra late
  cases found.symm.trans (fresh inode (Nat.lt_of_not_le late))

theorem Fresh.next : this.files.get? (this.lastInodeNumber + 1) = none :=
  fresh _ (Nat.lt_succ_self _)

theorem Fresh.parent {name inode parent}
    (resolved : this.resolveExceptLast path uid gid = some (.ok (parentInode, name)))
    (found : (this.withInode inode).files.get? parentInode = some parent) :
    parentInode ≠ this.lastInodeNumber + 1 ∧ this.files.get? parentInode = some parent := by
  obtain ⟨old, present⟩ := resolveExceptLast_ok resolved
  have different : parentInode ≠ this.lastInodeNumber + 1 :=
    (Nat.lt_succ_of_le (fresh.of_some present)).ne
  rw [withInode, get?_insert, if_neg different] at found
  exact ⟨different, found⟩

theorem Fresh.setFile {after}
    (found : this.files.get? inode = some file) : (this.setFile inode after).Fresh := by
  intro other late
  have known := fresh.of_some found
  rw [get?_setFile, if_neg (by rintro rfl; exact absurd late (Nat.not_lt_of_le known))]
  exact fresh other late

theorem Fresh.erase : Fresh { this with files := this.files.erase inode } := by
  intro other late
  rw [get?_erase]
  split
  · rfl
  · exact fresh other late

theorem Fresh.withInode (inode : File) : (this.withInode inode).Fresh := by
  intro other late
  change this.lastInodeNumber + 1 < other at late
  rw [Filesystem.withInode, get?_insert, if_neg late.ne']
  exact fresh other (Nat.lt_of_succ_lt late)

end

end Opening

end Filesystem

end EosBase.Ramfs
