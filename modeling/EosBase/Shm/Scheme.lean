import EosBase.Lib.Transition
import EosBase.Redox.HandleMap

/-!
# Shared memory

`ipcd/src/shm.rs`.  A segment is an entry of `maps`; handles find it by its path.
The bytes of a segment are where the kernel has mapped them, and not part of the
scheme: a `MmapGuard` is an address and a length.

A request has no result when it panics.  Where the kernel maps a segment belongs
to the request.  `fpath` and `fstat` change nothing and are left out.
-/

namespace EosBase.Shm

open Redox

def PAGE_SIZE : Nat := 4096

def wholePages (length : Nat) : Nat :=
  (length + (PAGE_SIZE - 1)) / PAGE_SIZE * PAGE_SIZE % 2 ^ 64

structure MmapGuard where
  base : Nat
  len : Nat
  deriving DecidableEq, Repr

namespace MmapGuard

variable (this : MmapGuard)

def new : MmapGuard := ⟨0, 0⟩

def totalCapacity : Nat := wholePages this.len

/-- `grow_to`; `mapped` is what `fmap` or `mremap` returns. -/
def growTo (newLen : Nat) (mapped : Result Nat) : Result MmapGuard :=
  if newLen ≤ this.totalCapacity then
    .ok { this with len := newLen }
  else do
    let newBase ← mapped
    return ⟨newBase, newLen⟩

def mmap (offset size : Nat) : Result Nat :=
  if wholePages this.len < (offset + size) % 2 ^ 64 then
    .error .ERANGE
  else if size = 0 then
    .ok 0
  else
    .ok ((this.base + offset) % 2 ^ 64)

/-- `read`: how many bytes are copied. -/
def read (offset length : Nat) : Nat :=
  if this.len ≤ offset then 0 else min (this.len - offset) length

/-- `write`: how many bytes are copied. -/
def write (offset length : Nat) (mapped : Result Nat) : Result (MmapGuard × Nat) :=
  if 2 ^ 64 ≤ offset + length then
    .error .ERANGE
  else do
    let grown ← this.growTo (offset + length) mapped
    return (grown, min (grown.len - offset) length)

end MmapGuard

inductive Handle where
  | shm (path : Name)
  | schemeRoot
  deriving DecidableEq, Repr

def Handle.asShm : Handle → Result Name
  | shm path => .ok path
  | schemeRoot => .error .EBADF

structure ShmHandle where
  buffer : MmapGuard
  refs : Nat
  unlinked : Bool
  deriving DecidableEq, Repr

structure ShmScheme where
  maps : Table Name ShmHandle
  handles : HandleMap Handle

inductive Reply where
  | thisScheme (number : Nat)
  | done
  | count (length : Nat)
  | address (base : Nat)
  deriving DecidableEq, Repr

namespace ShmScheme

variable (this : ShmScheme)

def new : ShmScheme := ⟨.empty, .new⟩

/-- A state with what a request returns; nothing after a panic. -/
abbrev Done := Option (ShmScheme × Result Reply)

def fail (error : Errno) : Done := some (this, .error error)

def schemeRoot : ShmScheme × Nat :=
  ({ this with handles := (this.handles.insert .schemeRoot).1 },
    (this.handles.insert .schemeRoot).2)

def attach (path : Name) (entry : ShmHandle) : Done :=
  some
    (⟨this.maps.insert path { entry with refs := entry.refs + 1 },
        (this.handles.insert (.shm path)).1⟩,
      .ok (.thisScheme (this.handles.insert (.shm path)).2))

def openat (dirfd : Nat) (path : Name) (flags : Nat) : Done :=
  match this.handles.get dirfd with
  | .error error => this.fail error
  | .ok (.shm _) => this.fail .EACCES
  | .ok .schemeRoot =>
    match this.maps.get? path with
    | some entry =>
      if flags &&& O_EXCL ≠ 0 ∧ flags &&& O_CREAT ≠ 0 then this.fail .EEXIST
      else this.attach path entry
    | none =>
      if flags &&& O_CREAT = 0 then this.fail .ENOENT
      else this.attach path ⟨.new, 0, false⟩

/-- `on_close`; nothing after a panic. -/
def onClose (id : Nat) : Option ShmScheme :=
  match this.handles.remove id with
  | (_, none) => none
  | (handles, some .schemeRoot) => some { this with handles := handles }
  | (handles, some (.shm path)) =>
    match this.maps.get? path with
    -- "handle pointing to nothing"
    | none => none
    | some entry =>
      if entry.refs = 0 then
        none
      else
        let left := { entry with refs := entry.refs - 1 }
        if left.refs = 0 ∧ left.unlinked then
          some ⟨this.maps.erase path, handles⟩
        else
          some ⟨this.maps.insert path left, handles⟩

def unlinkat (dirfd : Nat) (path : Name) (flags : Nat) : Done :=
  match this.handles.get dirfd with
  | .error error => this.fail error
  | .ok (.shm _) => this.fail .EACCES
  | .ok .schemeRoot =>
    if flags &&& AT_REMOVEDIR = AT_REMOVEDIR then
      this.fail .ENOTDIR
    else
      match this.maps.get? path with
      | none => this.fail .ENOENT
      | some entry =>
        if entry.refs = 0 then
          some ({ this with maps := this.maps.erase path }, .ok .done)
        else
          some ({ this with maps := this.maps.insert path { entry with unlinked := true } },
            .ok .done)

/-- What `fsize`, `ftruncate`, `mmap_prep`, `read` and `write` share: the segment
of a handle is found, or the request panics. -/
def withBuffer (id : Nat) (use : MmapGuard → Result (MmapGuard × Reply)) : Done :=
  match this.handles.get id >>= Handle.asShm with
  | .error error => this.fail error
  | .ok path =>
    match this.maps.get? path with
    -- "handle pointing to nothing"
    | none => none
    | some entry =>
      match use entry.buffer with
      | .error error => this.fail error
      | .ok (buffer, reply) =>
        some ({ this with maps := this.maps.insert path { entry with buffer := buffer } },
          .ok reply)

def fsize (id : Nat) : Done :=
  this.withBuffer id fun buffer => .ok (buffer, .count buffer.len)

def ftruncate (id len : Nat) (mapped : Result Nat) : Done :=
  this.withBuffer id fun buffer => do
    let grown ← buffer.growTo len mapped
    return (grown, .done)

def mmapPrep (id offset size : Nat) : Done :=
  this.withBuffer id fun buffer => do
    let base ← buffer.mmap offset size
    return (buffer, .address base)

def read (id offset length : Nat) : Done :=
  this.withBuffer id fun buffer => .ok (buffer, .count (buffer.read offset length))

def write (id offset length : Nat) (mapped : Result Nat) : Done :=
  this.withBuffer id fun buffer => do
    let (grown, written) ← buffer.write offset length mapped
    return (grown, .count written)

end ShmScheme

inductive Event where
  | schemeRoot
  | openat (dirfd : Nat) (path : Name) (flags : Nat)
  | unlinkat (dirfd : Nat) (path : Name) (flags : Nat)
  | close (id : Nat)
  | fsize (id : Nat)
  | ftruncate (id len : Nat) (mapped : Result Nat)
  | mmapPrep (id offset size : Nat)
  | read (id offset length : Nat)
  | write (id offset length : Nat) (mapped : Result Nat)

def step (this : ShmScheme) : Event → Option (ShmScheme × Option (Result Reply))
  | .schemeRoot => some (this.schemeRoot.1, some (.ok (.thisScheme this.schemeRoot.2)))
  | .openat dirfd path flags => replied (this.openat dirfd path flags)
  | .unlinkat dirfd path flags => replied (this.unlinkat dirfd path flags)
  | .close id => (this.onClose id).map fun after => (after, none)
  | .fsize id => replied (this.fsize id)
  | .ftruncate id len mapped => replied (this.ftruncate id len mapped)
  | .mmapPrep id offset size => replied (this.mmapPrep id offset size)
  | .read id offset length => replied (this.read id offset length)
  | .write id offset length mapped => replied (this.write id offset length mapped)

def shm : System ShmScheme Event (Result Reply) where
  start := .new
  step := step

end EosBase.Shm
