import EosBase.Lib.Table
import EosBase.Redox.Syscall

/-!
# Files in memory

`ramfs/src/filesystem.rs`.  Inodes are numbered and found in one map.  A directory
keeps its entries in the order in which they were made.  Times are left out.  What
may panic has no result then.
-/

namespace EosBase.Ramfs

open Redox

inductive FileData where
  | file (bytes : List UInt8)
  | directory (dentries : Table Name Nat)
  deriving DecidableEq

structure File where
  mode : Nat
  uid : Nat
  gid : Nat
  nlink : Nat
  parent : Nat
  openHandles : Nat
  data : FileData
  deriving DecidableEq

def currentPerm (file : File) (uid gid : Nat) : Nat :=
  let perm := file.mode &&& MODE_PERM
  if uid = 0 then
    -- root doesn't have to be checked
    0o7
  else if uid = file.uid then
    (perm &&& 0o700) >>> 6
  else if gid = file.gid then
    (perm &&& 0o70) >>> 3
  else
    perm &&& 0o7

structure Filesystem where
  files : Table Nat File
  lastInodeNumber : Nat

def pathComponents (path : Name) : List Name :=
  (path.splitOn slash).filter (· ≠ [])

namespace Filesystem

def ROOT_INODE : Nat := 1

def createRootInode : File where
  mode := MODE_DIR ||| 0o755
  nlink := 1
  openHandles := 0
  uid := 0
  gid := 0
  data := .directory .empty
  parent := ROOT_INODE

def new : Filesystem where
  files := Table.empty.insert ROOT_INODE createRootInode
  lastInodeNumber := ROOT_INODE

def enter (this : Filesystem) (dentries : Table Name Nat) (part : Name) : Result (Nat × File) := do
  let inode ← okOr .ENOENT (dentries.get? part)
  let file ← okOr Errno.EIO (this.files.get? inode)
  return (inode, file)

/-- The loop of `resolve_generic`.  Each round leaves fewer parts from `i` on, so that
as many rounds as there are parts are enough. -/
def resolveLoop (this : Filesystem) (uid gid : Nat) :
    (rounds : Nat) → (parts : List Name) → (i inode : Nat) → File → Option (Result Nat)
  | 0, _, _, inode, _ => some (.ok inode)
  | rounds + 1, parts, i, inode, file =>
    match parts[i]? with
    | none => some (.ok inode)
    | some part =>
      match file.data with
      | .file _ => some (.error .ENOENT)
      | .directory dentries =>
        if currentPerm file uid gid &&& 0o1 = 0 then
          some (.error .EACCES)
        else
          let parts := if part = dot ∨ part = dotDot then parts.eraseIdx i else parts
          match parts[i]? with
          | none => none
          | some part =>
            let back := part = dotDot ∧ 0 < i
            let parts := if back then parts.eraseIdx (i - 1) else parts
            let i := if back then i - 1 else i
            match parts[i]? with
            | none => none
            | some part =>
              match this.enter dentries part with
              | .error error => some (.error error)
              | .ok (inode, file) =>
                resolveLoop this uid gid rounds parts (i + 1) inode file

def resolveGeneric (this : Filesystem) (parts : List Name) (uid gid : Nat) : Option (Result Nat) :=
  match this.files.get? ROOT_INODE with
  | none => some (.error .ENOENT)
  | some root => this.resolveLoop uid gid parts.length parts 0 ROOT_INODE root

/-- The inode of the directory that a path ends in, and the last name of the path. -/
def resolveExceptLast (this : Filesystem) (path : Name) (uid gid : Nat) :
    Option (Result (Nat × Option Name)) :=
  let parts := pathComponents (path.dropWhile (· = slash))
  (this.resolveGeneric parts.dropLast uid gid).map fun answer =>
    answer.map fun inode => (inode, parts.getLast?)

def resolve (this : Filesystem) (path : Name) (uid gid : Nat) : Option (Result Nat) :=
  this.resolveGeneric (pathComponents (path.dropWhile (· = slash))) uid gid

end Filesystem

end EosBase.Ramfs
