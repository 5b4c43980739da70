import EosBase.Ramfs.Effects

/-!
# What a failed request leaves behind

A request to remove or to create that fails should have changed nothing.  Removing
takes the entry out before it knows whether what the entry stands for may go, and
creating makes the inode before it knows whether the inode can be entered anywhere.
-/

namespace EosBase.Ramfs

open Redox Filesystem Option

/-- The contents or the entries of an inode, with the number of its links. -/
def shape (this : Filesystem) (inode : Nat) : Option (FileData × Nat) :=
  (this.files.get? inode).map fun file => (file.data, file.nlink)

/-- The same inodes, with the same entries, links and contents. -/
def SameNamespace (before after : Filesystem) : Prop :=
  ∀ inode, shape after inode = shape before inode

variable {this : Filesystem} {path : Name} {uid gid : Nat}

theorem shape_setFile {inode other file} : shape (this.setFile inode file) other =
    if other = inode then some (file.data, file.nlink) else shape this other := by
  rw [shape, get?_setFile]
  split <;> rfl

/-- The removal takes out an entry and then finds that it should not have. -/
def Spoils (this : Filesystem) (path : Name) (uid gid : Nat) (directory : Bool) : Prop :=
  ∃ parentInode parent dentries name target,
    this.Takes path uid gid parentInode parent dentries name target ∧
      Unfit (this.takeOut parentInode parent dentries name) target directory

variable {parentInode target : Nat} {error : Errno} {taken : Filesystem}
  {result : Option (Filesystem × Result Unit)} {directory : Bool}

theorem takeOut_differs {parent dentries name}
    (takes : this.Takes path uid gid parentInode parent dentries name target) :
    ¬ SameNamespace this (this.takeOut parentInode parent dentries name) := by
  intro same
  have changed := same parentInode
  rw [takeOut, shape_setFile, if_pos rfl, shape, takes.found, map_some,
    takes.isDirectory] at changed
  have equal : dentries.erase name = dentries := by
    injection changed with pair
    injection pair with data
    injection data
  have gone := dentries.get?_erase_self name
  rw [equal, takes.named] at gone
  cases gone

theorem dropLinks_ne_error {after info links} :
    taken.dropLinks target info links ≠ some (after, .error error) := by
  rw [dropLinks]
  split
  · nofun
  · split <;> nofun

section

variable (outcome : Outcome taken parentInode target directory result)

include outcome

/-- After the entry was taken out, only an unfit target makes the removal fail, and
nothing more has changed then. -/
theorem outcome_error {after} (failed : result = some (after, .error error)) :
    after = taken ∧ Unfit taken target directory := by
  cases outcome with
  | unfit other unfit =>
    cases failed
    exact ⟨rfl, unfit⟩
  | file info bytes _ found isFile => exact absurd failed dropLinks_ne_error
  | directory info entries parent _ found isDirectory _ present =>
    split at failed
    · cases failed
    · obtain ⟨now, still, unchanged⟩ := still_directory found isDirectory present
      rw [removeInode, still] at failed
      simp only [unchanged] at failed
      exact absurd failed dropLinks_ne_error

theorem outcome_unfit
    (unfit : Unfit taken target directory) : ∃ error, result = some (taken, .error error) := by
  cases outcome with
  | unfit error _ => exact ⟨error, rfl⟩
  | file info bytes isFalse found isFile =>
    rw [Unfit, found, map_some, isFile] at unfit
    cases isFalse.symm.trans unfit
  | directory info entries parent isTrue found isDirectory empty _ =>
    rw [Unfit, found, map_some, isDirectory] at unfit
    rcases unfit with isFalse | nonempty
    · cases isTrue.symm.trans isFalse
    · exact absurd empty nonempty

end

theorem removeDentry_same_iff (directory : Bool) :
    (∀ after error, this.removeDentry path uid gid directory = some (after, .error error) →
        SameNamespace this after) ↔ ¬ Spoils this path uid gid directory := by
  rcases this.removeDentry_cases directory with
    ⟨parentInode, parent, dentries, name, target, takes, removed⟩ | ⟨none, refused⟩
  · have outcome : Outcome (this.takeOut parentInode parent dentries name) parentInode _ _ _ :=
      removeTarget_outcome target directory (Table.get?_insert_self _ _ _)
    rw [← removed] at outcome
    constructor
    · rintro same ⟨_, _, _, _, _, other, unfit⟩
      cases takes.resolved.symm.trans other.resolved
      cases takes.found.symm.trans other.found
      cases takes.isDirectory.symm.trans other.isDirectory
      cases takes.named.symm.trans other.named
      obtain ⟨error, failed⟩ := outcome_unfit outcome unfit
      exact takeOut_differs takes (same _ error failed)
    · intro fit after error failed
      have unfit := (outcome_error outcome failed).2
      exact absurd ⟨_, _, _, _, _, takes, unfit⟩ fit
  · refine ⟨fun _ ⟨_, _, _, _, _, takes, _⟩ => none _ _ _ _ _ takes, fun _ => ?_⟩
    intro after error failed
    rcases refused with ⟨_, panics⟩ | ⟨other, unchanged⟩
    · cases panics.symm.trans failed
    · cases unchanged.symm.trans failed
      exact fun _ => rfl

/-- The creation makes an inode that it cannot enter into its directory, for that is a
file.  (A number that was in use already, by an inode of the same shape, would hide
this.) -/
def Strays (this : Filesystem) (path : Name) (flags uid gid : Nat) : Prop :=
  ∃ parentInode name inode parent bytes,
    this.Creates path flags uid gid parentInode name inode ∧
      (this.withInode inode).files.get? parentInode = some parent ∧ parent.data = .file bytes ∧
      shape this (this.lastInodeNumber + 1) ≠ some (inode.data, inode.nlink)

theorem sameNamespace_withInode_iff {inode} : SameNamespace this (this.withInode inode) ↔
      shape this (this.lastInodeNumber + 1) = some (inode.data, inode.nlink) := by
  have inserted : ∀ other, shape (this.withInode inode) other =
      if other = this.lastInodeNumber + 1 then some (inode.data, inode.nlink)
      else shape this other :=
    fun other => shape_setFile
  constructor
  · intro same
    have taken := same (this.lastInodeNumber + 1)
    rw [inserted, if_pos rfl] at taken
    exact taken.symm
  · intro hidden other
    rw [inserted]
    split
    next equal => rw [equal, hidden]
    next => rfl

theorem openInode_same_iff {flags fcntlFlags} :
    (∀ after error, this.openInode path flags fcntlFlags uid gid = some (after, .error error) →
        SameNamespace this after) ↔ ¬ Strays this path flags uid gid := by
  constructor
  · rintro same ⟨parentInode, name, inode, parent, bytes, creates, found, isFile, visible⟩
    have opened := openInode_of_creates fcntlFlags creates
    rw [linkInto, found] at opened
    simp only [isFile] at opened
    exact visible ((sameNamespace_withInode_iff).mp (same _ _ opened))
  · intro entered after error failed
    have opening := openInode_opening this path flags fcntlFlags uid gid
    generalize this.openInode path flags fcntlFlags uid gid = result at opening failed
    cases opening with
    | panics | opened | created => cases failed
    | refused =>
      cases failed
      exact fun _ => rfl
    | stray parentInode name inode parent bytes creates found isFile =>
      cases failed
      apply (sameNamespace_withInode_iff).mpr
      by_contra visible
      exact entered ⟨parentInode, name, inode, parent, bytes, creates, found, isFile, visible⟩

/-- A removal that fails has changed nothing, unless it took out an entry that it should
not have; a creation that fails has changed nothing, unless its directory is a file. -/
theorem failure_changes_nothing_iff (this : Scheme) (path : Name) (ctx : CallerCtx) : (∀ directory,
      (∀ after error, this.filesystem.removeDentry path ctx.uid ctx.gid directory =
          some (after, .error error) → SameNamespace this.filesystem after) ↔
        ¬ Spoils this.filesystem path ctx.uid ctx.gid directory) ∧
    ∀ dirfd flags fcntlFlags,
      (∀ after error, this.openat dirfd path flags fcntlFlags ctx = some (after, .error error) →
          SameNamespace this.filesystem after.filesystem) ↔
        ¬ (this.handles.get? dirfd = some (.inode ROOT_INODE) ∧
          Strays this.filesystem path flags ctx.uid ctx.gid) := by
  refine ⟨removeDentry_same_iff, ?_⟩
  intro dirfd flags fcntlFlags
  rw [not_and, ← openInode_same_iff]
  rw [Scheme.openat]
  cases got : this.handles.get dirfd with
  | error error =>
    refine ⟨fun _ root => ?_, fun _ after other failed => ?_⟩
    · rw [HandleMap.get, root] at got
      cases got
    · cases failed
      exact fun _ => rfl
  | ok handle =>
    obtain ⟨inode⟩ := handle
    have held := HandleMap.get_ok got
    by_cases root : inode = ROOT_INODE
    · subst root
      constructor
      · intro same _ after error failed
        rw [failed] at same
        exact same _ error rfl
      · intro same after error failed
        obtain ⟨⟨opened, result⟩, done, reply⟩ := map_eq_some_iff.mp failed
        cases result with
        | error other =>
          cases reply
          exact same held opened error done
        | ok number => cases reply
    · simp only [Handle.asInode, ne_eq, root, not_false_eq_true, if_true, Scheme.fail]
      refine ⟨fun _ isRoot => ?_, fun _ after other failed => ?_⟩
      · cases held.symm.trans isRoot
        exact absurd rfl root
      · cases failed
        exact fun _ => rfl

def oneDirectory : Filesystem where
  files := (Table.empty.insert ROOT_INODE
    { createRootInode with data := .directory (Table.empty.insertLast [100] 2) }).insert 2
      ⟨MODE_DIR ||| 0o755, 0, 0, 2, ROOT_INODE, 0, .directory .empty⟩
  lastInodeNumber := 2

/-- Removing a directory as if it were a file fails, and its entry is gone. -/
theorem failed_removal_loses_entry : ∃ after,
    oneDirectory.removeDentry [100] 0 0 false = some (after, .error .EISDIR) ∧
      ¬ SameNamespace oneDirectory after := by
  refine ⟨_, rfl, fun same => ?_⟩
  exact absurd (same ROOT_INODE) (by decide +kernel)

end EosBase.Ramfs
