import EosBase.Initfs.Image
import EosBase.Lib.Loop
import EosBase.Lib.Table
import EosBase.Redox.Syscall
import Mathlib.Data.List.DropRight

/-!
# Initfs: the scheme

The operations of `bootstrap/src/initfs.rs` that walk directories.  Their loops
run over an iterator that has no end of its own, so they take a number of rounds
and have no result when they are not done by then.

The release profile does not check for overflow: the index of the iterator wraps.
-/

namespace EosBase.Initfs

open Redox

def orEio {Value : Type} : Read Value → Served Value
  | .ok value => .ok value
  | .error .invalid => .error (.errno Errno.EIO)
  | .error .panic => .error .panic

structure Iter where
  dir : InodeStruct
  idx : Nat

def Iter.next (iter : Iter) : Option (Served Entry) × Iter :=
  (match orEio (iter.dir.getEntry iter.idx) with
    | .ok none => none
    | .ok (some entry) => some (.ok entry)
    | .error fault => some (.error fault),
    { iter with idx := (iter.idx + 1) % 2 ^ 32 })

def lenTurn (state : Iter × Nat) : Turn (Iter × Nat) (Served Nat) :=
  match state.1.next with
  | (none, _) => .done (.ok state.2)
  | (some entry, iter) =>
    match entry.bind fun entry => orEio entry.name with
    | .ok name => .again (iter, state.2 + (name.length + 1))
    | .error (.errno _) => .again (iter, state.2 + 0)
    | .error .panic => .done (.error .panic)

def inodeLen (rounds : Nat) (inode : InodeStruct) : Option (Served Nat) :=
  match inode.kind with
  | .file file => some ((orEio file.data).map List.length)
  | .dir dir => loop lenTurn rounds (⟨dir, 0⟩, 0)
  | .link link => some ((orEio link.data).map List.length)
  | .unknown => some (.error (.errno Errno.EIO))

def findTurn (component : List UInt8) (entries : Iter) : Turn Iter (Served Nat) :=
  match entries.next with
  | (none, _) => .done (.error (.errno .ENOENT))
  | (some entryRes, entries) =>
    match entryRes with
    | .error fault => .done (.error fault)
    | .ok entry =>
      match orEio entry.name with
      | .error fault => .done (.error fault)
      | .ok name =>
        if name = component then .done (.ok entry.entry.inode) else .again entries

def getInode (fs : InitFs) (inode : Nat) : Served InodeStruct :=
  (orEio (fs.getInode inode)).bind (orErrno Errno.EIO)

/-- `path.trim_matches('/').split('/').filter(|c| !c.is_empty())`. -/
def components (path : List UInt8) : List (List UInt8) :=
  (((path.dropWhile fun c => c == slash).rdropWhile fun c => c == slash).splitOn slash).filter
    fun component => !component.isEmpty

def directory (fs : InitFs) (current : Nat) : Served InodeStruct :=
  (getInode fs current).bind fun inode =>
    match inode.kind with
    | .dir dir => .ok dir
    | .link _ => .error (.errno .EOPNOTSUPP)
    | .file _ => .error (.errno .ENOENT)
    | .unknown => .error (.errno .ENOENT)

/-- The loop of `openat` over the components, which takes them from the front and
after `..` drops one at the back. -/
def lookup (fs : InitFs) (rounds : Nat) : Nat → List (List UInt8) → Nat → Option (Served Nat)
  | 0, _, _ => none
  | _ + 1, [], current => some (.ok current)
  | steps + 1, component :: rest, current =>
    if component = dot then
      lookup fs rounds steps rest current
    else if component = dotDot then
      lookup fs rounds steps rest.dropLast current
    else
      match directory fs current with
      | .error fault => some (.error fault)
      | .ok dir =>
        match loop (findTurn component) rounds ⟨dir, 0⟩ with
        | none => none
        | some (.error fault) => some (.error fault)
        | some (.ok inode) => lookup fs rounds steps rest inode

inductive Handle where
  | node (inode : Nat) (filename : List UInt8)
  | schemeRoot
  deriving DecidableEq, Repr

structure InitFsScheme where
  handles : Table Nat Handle
  nextId : Nat
  fs : InitFs

namespace InitFsScheme

/-- `handles.get(&id).ok_or(EBADF)?.as_node()`. -/
def asNode (scheme : InitFsScheme) (id : Nat) : Served Nat :=
  match scheme.handles.get? id with
  | some (.node inode _) => .ok inode
  | _ => .error (.errno .EBADF)

def resolve (scheme : InitFsScheme) (rounds : Nat) (path : List UInt8) : Option (Served Nat) :=
  match orEio scheme.fs.rootInode with
  | .error fault => some (.error fault)
  | .ok root => lookup scheme.fs rounds ((components path).length + 1) (components path) root

/-- `openat`; the flags are those that say what to do with a link. -/
def openat (scheme : InitFsScheme) (rounds dirfd : Nat) (path : List UInt8)
    (statNofollow symlink : Bool) : Option (InitFsScheme × Served Nat) :=
  match scheme.handles.get? dirfd with
  | none => some (scheme, .error (.errno .EBADF))
  | some (.node _ _) => some (scheme, .error (.errno .EACCES))
  | some .schemeRoot =>
    (scheme.resolve rounds path).map fun resolved =>
      match resolved.bind fun current =>
          (getInode scheme.fs current).map fun inode => (current, inode.kind) with
      | .error fault => (scheme, .error fault)
      | .ok (current, kind) =>
        let isLink : Bool := match kind with
          | .link _ => true
          | _ => false
        if isLink && !statNofollow && !symlink then
          (scheme, .error (.errno .EXDEV))
        else if scheme.nextId = 2 ^ 64 - 1 then
          (scheme, .error .panic)
        else
          let id := scheme.nextId + 1
          -- `assert!(old.is_none())`
          if scheme.handles.contains id then (scheme, .error .panic)
          else
            ({ scheme with
              handles := scheme.handles.insert id (.node current path), nextId := id },
              .ok id)

/-- One round of the loop of `getdents`.  `push` is `DirentBuf::entry`, with the
name and the next position of an entry. -/
def dentsTurn {Buffer : Type} (push : Buffer → List UInt8 → Nat → Except Errno Buffer)
    (state : Iter × Nat × Buffer) : Turn (Iter × Nat × Buffer) (Served Buffer) :=
  match state.1.next with
  | (none, _) => .done (.ok state.2.2)
  | (some (.error fault), _) => .done (.error fault)
  | (some (.ok entry), iter) =>
    match orEio entry.name with
    | .error fault => .done (.error fault)
    | .ok name =>
      if ByteArray.validateUTF8 ⟨name.toArray⟩ then
        match push state.2.2 name (state.2.1 + 1) with
        | .error errno => .done (.error (.errno errno))
        | .ok buf => .again (iter, state.2.1 + 1, buf)
      else
        .done (.error (.errno Errno.EIO))

def getdents {Buffer : Type} (scheme : InitFsScheme)
    (push : Buffer → List UInt8 → Nat → Except Errno Buffer) (rounds id : Nat) (buf : Buffer)
    (opaqueOffset : Nat) : Option (Served Buffer) :=
  if 2 ^ 32 ≤ opaqueOffset then
    some (.ok buf)
  else
    match (scheme.asNode id).bind (getInode scheme.fs) with
    | .error fault => some (.error fault)
    | .ok inode =>
      match inode.kind with
      | .dir dir => loop (dentsTurn push) rounds (⟨dir, opaqueOffset⟩, 0, buf)
      | _ => some (.error (.errno .ENOTDIR))

def fsize (scheme : InitFsScheme) (rounds id : Nat) : Option (Served Nat) :=
  match (scheme.asNode id).bind (getInode scheme.fs) with
  | .error fault => some (.error fault)
  | .ok inode => inodeLen rounds inode

end InitFsScheme

end EosBase.Initfs
