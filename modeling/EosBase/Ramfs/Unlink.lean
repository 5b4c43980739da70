import EosBase.Ramfs.Scheme

/-!
# Unlinking through the scheme

`unlinkat` compares the bits of an inode number, inverted, with the number of the
root.  A handle on the root never passes, so that no client can remove a file.
-/

namespace EosBase.Ramfs

open Redox Filesystem

/-- The event leaves open a handle and leaves alone the file behind it. -/
def Spares (fd inode : Nat) (this : Scheme) (event : Event) : Prop :=
  match event.request with
  | .onClose other => other ≠ fd
  | .write other _ _ _ => this.handles.get? other ≠ some (.inode inode)
  | .ftruncate other _ _ => this.handles.get? other ≠ some (.inode inode)
  | .fchmod other _ => this.handles.get? other ≠ some (.inode inode)
  | _ => True

/-- Unlinking a path does what it should: the path is gone, other paths are as before,
and who had the file open still reads it until closing it. -/
def UnlinkWorks (this : Scheme) (dirfd : Nat) (path : Name) (inode : Nat) (ctx : CallerCtx) :
    Prop :=
  ∃ after, this.unlinkat dirfd path 0 ctx = some (after, .ok .done) ∧
    (∀ flags fcntlFlags, flags &&& O_CREAT = 0 →
      ∃ later, after.openat dirfd path flags fcntlFlags ctx = some (later, .error .ENOENT)) ∧
    (∀ other uid gid, this.filesystem.resolve other uid gid ≠ some (.ok inode) →
      after.filesystem.resolve other uid gid = this.filesystem.resolve other uid gid) ∧
    ∀ fd, this.handles.get? fd = some (.inode inode) →
      ∀ history later, ramfs.Path (Spares fd inode) after history later →
        ∀ length offset fcntlFlags,
          later.read fd length offset fcntlFlags = this.read fd length offset fcntlFlags

theorem unlinkat_root {this : Scheme} {dirfd}
    (root : this.handles.get? dirfd = some (.inode ROOT_INODE)) {path flags ctx} :
    this.unlinkat dirfd path flags ctx = some (this, .error .EACCES) := by
  have got : this.handles.get dirfd = .ok (.inode ROOT_INODE) := by
    rw [HandleMap.get, root]
    rfl
  rw [Scheme.unlinkat, got]
  exact if_pos (by decide)

/-- Whatever the path is and whoever asks: unlinking through a handle on the root does
not work. -/
theorem unlink_never_works (this : Scheme) (dirfd : Nat) (path : Name) (inode : Nat)
    (ctx : CallerCtx) (root : this.handles.get? dirfd = some (.inode ROOT_INODE)) :
    ¬ UnlinkWorks this dirfd path inode ctx := by
  rintro ⟨after, done, _⟩
  cases (unlinkat_root root).symm.trans done

/-- Root opens the root directory and makes a file there, whose name is the letter a. -/
def oneFile : List Event :=
  [⟨.schemeRoot, ⟨0, 0⟩⟩, ⟨.openat 1 [97] (O_CREAT ||| O_RDWR) 0, ⟨0, 0⟩⟩]

theorem unlink_never_works_one_file : ∃ this, ramfs.Reachable this ∧
    this.filesystem.resolve [97] 0 0 = some (.ok 2) ∧ ¬ UnlinkWorks this 1 [97] 2 ⟨0, 0⟩ := by
  have reached := ramfs.reachable_replay oneFile (by decide +kernel)
  exact ⟨_, reached, rfl, unlink_never_works _ 1 [97] 2 ⟨0, 0⟩ rfl⟩

/-- Root cannot remove its own file from its own directory. -/
theorem unlink_refused : ∃ this, ramfs.Reachable this ∧
    this.handles.get? 1 = some (.inode ROOT_INODE) ∧
    this.filesystem.resolve [97] 0 0 = some (.ok 2) ∧
    this.unlinkat 1 [97] 0 ⟨0, 0⟩ = some (this, .error .EACCES) ∧
    ¬ UnlinkWorks this 1 [97] 2 ⟨0, 0⟩ := by
  have reached := ramfs.reachable_replay oneFile (by decide +kernel)
  refine ⟨_, reached, rfl, rfl, unlinkat_root rfl, ?_⟩
  rintro ⟨after, done, _⟩
  cases (unlinkat_root rfl).symm.trans done

end EosBase.Ramfs
