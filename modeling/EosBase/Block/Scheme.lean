import EosBase.Lib.Str
import EosBase.Lib.Transition
import EosBase.Redox.HandleMap

/-!
# Block devices

`drivers/storage/driver-block/src/lib.rs`: a disk with the partition table that was
read from it, and the scheme that serves disks and partitions to clients.  The
driver of the disk is a parameter.  A request has no result when it panics, and
otherwise says which calls of the driver it made.

`fstat`, `fsize` and `fpath` change nothing and are left out, as is reading the
partition table: its contents are arbitrary here.
-/

namespace EosBase.Block

open Redox Str

/-- `partitionlib::Partition`, without its name, its flags and its identifier. -/
structure Partition where
  startLba : UInt64
  size : UInt64
  deriving DecidableEq, Repr

structure PartitionTable where
  partitions : List Partition
  deriving DecidableEq, Repr

/-- The trait `Disk`.  A read returns the buffer as the driver leaves it. -/
class Disk (Device : Type) where
  blockSize : Device → UInt32
  size : Device → UInt64
  read : Device → (block : UInt64) → (buffer : List UInt8) → Device × List UInt8 × Result Nat
  write : Device → (block : UInt64) → (buffer : List UInt8) → Device × Result Nat

structure Access where
  block : UInt64
  length : Nat
  deriving DecidableEq, Repr

structure Outcome (State : Type) where
  state : State
  buffer : List UInt8
  result : Result Nat
  accesses : List Access

def Outcome.refused {State : Type} (state : State) (buffer : List UInt8) (error : Errno) :
    Outcome State :=
  ⟨state, buffer, .error error, []⟩

structure DiskWrapper (Device : Type) where
  disk : Device
  pt : Option PartitionTable

namespace DiskWrapper

variable {Device : Type} [Disk Device]

def blockSize (this : DiskWrapper Device) : UInt32 := Disk.blockSize this.disk

/-- How `read` and `write` start: the block of the disk to begin at.  The remainder
of a division by zero panics. -/
def locate (this : DiskWrapper Device) (partNum : Option Nat) (block : UInt64) (length : Nat) :
    Option (Result UInt64) :=
  if this.blockSize = 0 then
    none
  else if length % this.blockSize.toNat ≠ 0 then
    some (.error .EINVAL)
  else
    match partNum with
    | none => some (.ok block)
    | some partNum => some do
        let table ← okOr .EBADF this.pt
        let part ← okOr .EBADF table.partitions[partNum]?
        if part.size ≤ block then
          throw .EOVERFLOW
        else
          return part.startLba + block

def read (this : DiskWrapper Device) (partNum : Option Nat) (block : UInt64)
    (buffer : List UInt8) : Option (Outcome (DiskWrapper Device)) :=
  (this.locate partNum block buffer.length).map fun
    | .error error => .refused this buffer error
    | .ok absBlock =>
      let (disk, filled, result) := Disk.read this.disk absBlock buffer
      ⟨{ this with disk := disk }, filled, result, [⟨absBlock, buffer.length⟩]⟩

def write (this : DiskWrapper Device) (partNum : Option Nat) (block : UInt64)
    (buffer : List UInt8) : Option (Outcome (DiskWrapper Device)) :=
  (this.locate partNum block buffer.length).map fun
    | .error error => .refused this buffer error
    | .ok absBlock =>
      let (disk, result) := Disk.write this.disk absBlock buffer
      ⟨{ this with disk := disk }, buffer, result, [⟨absBlock, buffer.length⟩]⟩

end DiskWrapper

inductive Handle where
  | list (entries : List Char)
  | disk (number : UInt32)
  | partition (disk part : UInt32)
  | schemeRoot
  deriving DecidableEq, Repr

/-- `DiskSchemeInner`, without its name and its socket. -/
structure DiskSchemeInner (Device : Type) where
  disks : Table UInt32 (DiskWrapper Device)
  handles : HandleMap Handle

namespace DiskSchemeInner

variable {Device : Type} [Disk Device] (this : DiskSchemeInner Device)

def conflicts (disk : UInt32) (part : Option UInt32) : Handle → Bool
  | .disk number => disk == number
  | .partition number other =>
    disk == number &&
      match part with
      | some part => part == other
      | none => true
  | _ => false

def checkLocks (disk : UInt32) (part : Option UInt32) : Result Unit :=
  if this.handles.handles.any fun _ handle => conflicts disk part handle then
    .error .ENOLCK
  else
    .ok ()

def listDisk (number : UInt32) (wrapper : DiskWrapper Device) : List Char :=
  decimal number ++ '\n' ::
    match wrapper.pt with
    | none => []
    | some table =>
      (List.range table.partitions.length).flatMap fun part =>
        decimal number ++ 'p' :: Nat.toDigits 10 part ++ ['\n']

def listing : List Char :=
  (this.disks.keys.mergeSort fun first second => first ≤ second).flatMap fun number =>
    match this.disks.get? number with
    | some wrapper => listDisk number wrapper
    | none => []

def openPartition (disk part : List Char) : Result Handle := do
  let nsid ← okOr .ENOENT (parseU32 disk)
  let partNum ← okOr .ENOENT (parseU32 part)
  let wrapper ← okOr .ENOENT (this.disks.get? nsid)
  let table ← okOr .ENOENT wrapper.pt
  let _ ← okOr .ENOENT table.partitions[partNum.toNat]?
  this.checkLocks nsid (some partNum)
  return .partition nsid partNum

def openDisk (path : List Char) : Result Handle := do
  let nsid ← okOr .ENOENT (parseU32 path)
  let _ ← okOr .ENOENT (this.disks.get? nsid)
  this.checkLocks nsid none
  return .disk nsid

/-- The handle that a path without slashes around it asks for.  The character `p` is
looked for by characters and the path is cut by bytes. -/
def handleFor (path : List Char) (flags : Nat) : Option (Result Handle) :=
  if path = [] then
    if flags &&& O_DIRECTORY = O_DIRECTORY ∨ flags &&& O_STAT = O_STAT then
      some (.ok (.list this.listing))
    else
      some (.error .EISDIR)
  else
    match path.findIdx? (· == 'p') with
    | none => some (this.openDisk path)
    | some position =>
      match splitAtByte path position with
      | none => none
      | some (disk, _) =>
        if byteLen path ≤ position + 1 then
          some (.error .ENOENT)
        else
          match splitAtByte path (position + 1) with
          | none => none
          | some (_, part) => some (this.openPartition disk part)

def openat (dirfd : Nat) (path : List Char) (flags uid : Nat) :
    Option (DiskSchemeInner Device × Result Nat) :=
  match this.handles.get dirfd with
  | .error error => some (this, .error error)
  | .ok directory =>
    if directory ≠ .schemeRoot then
      some (this, .error .EACCES)
    else if uid ≠ 0 then
      some (this, .error .EACCES)
    else
      (this.handleFor (trimMatches '/' path) flags).map fun
        | .error error => (this, .error error)
        | .ok handle =>
          ({ this with handles := (this.handles.insert handle).1 },
            .ok (this.handles.insert handle).2)

def onDisk (number : UInt32) (buffer : List UInt8) (offset : UInt64)
    (transfer : DiskWrapper Device → UInt64 → List UInt8 → Option (Outcome (DiskWrapper Device))) :
    Option (Outcome (DiskSchemeInner Device)) :=
  match this.disks.get? number with
  | none => some (.refused this buffer .EBADF)
  | some wrapper =>
    -- the offset is divided by the block size, which panics when that is zero
    if wrapper.blockSize = 0 then
      none
    else
      (transfer wrapper (offset / wrapper.blockSize.toUInt64) buffer).map fun outcome =>
        { outcome with
          state := { this with disks := this.disks.insert number outcome.state } }

def read (id : Nat) (buffer : List UInt8) (offset : UInt64) :
    Option (Outcome (DiskSchemeInner Device)) :=
  match this.handles.get id with
  | .error error => some (.refused this buffer error)
  | .ok (.list entries) =>
    let source := (entries.map Char.toUInt8).drop offset.toNat
    let count := min source.length buffer.length
    some ⟨this, source.take count ++ buffer.drop count, .ok count, []⟩
  | .ok (.disk number) =>
    this.onDisk number buffer offset fun disk block buffer => disk.read none block buffer
  | .ok (.partition number part) =>
    this.onDisk number buffer offset fun disk block buffer =>
      disk.read (some part.toNat) block buffer
  | .ok .schemeRoot => some (.refused this buffer .EBADF)

def write (id : Nat) (buffer : List UInt8) (offset : UInt64) :
    Option (Outcome (DiskSchemeInner Device)) :=
  match this.handles.get id with
  | .error error => some (.refused this buffer error)
  | .ok (.list _) => some (.refused this buffer .EBADF)
  | .ok (.disk number) =>
    this.onDisk number buffer offset fun disk block buffer => disk.write none block buffer
  | .ok (.partition number part) =>
    this.onDisk number buffer offset fun disk block buffer =>
      disk.write (some part.toNat) block buffer
  | .ok .schemeRoot => some (.refused this buffer .EBADF)

def onClose (id : Nat) : DiskSchemeInner Device :=
  { this with handles := (this.handles.remove id).1 }

end DiskSchemeInner

inductive Request where
  | openat (dirfd : Nat) (path : List Char) (flags uid : Nat)
  | read (id : Nat) (buffer : List UInt8) (offset : UInt64)
  | write (id : Nat) (buffer : List UInt8) (offset : UInt64)
  | onClose (id : Nat)
  deriving DecidableEq, Repr

variable {Device : Type} [Disk Device]

/-- `DiskScheme::new` opens the root of the scheme once, to register it. -/
def DiskSchemeInner.new (disks : Table UInt32 (DiskWrapper Device)) : DiskSchemeInner Device :=
  ⟨disks, (HandleMap.new.insert .schemeRoot).1⟩

def blocks (disks : Table UInt32 (DiskWrapper Device)) :
    System (DiskSchemeInner Device) Request (Result Nat) where
  start := .new disks
  step this
    | .openat dirfd path flags uid => replied (this.openat dirfd path flags uid)
    | .read id buffer offset =>
      (this.read id buffer offset).map fun outcome => (outcome.state, some outcome.result)
    | .write id buffer offset =>
      (this.write id buffer offset).map fun outcome => (outcome.state, some outcome.result)
    | .onClose id => some (this.onClose id, none)

structure Blank where
  blockSize : UInt32
  deriving DecidableEq, Repr

instance : Disk Blank where
  blockSize := Blank.blockSize
  size _ := 1024
  read disk _ buffer := (disk, buffer, .ok buffer.length)
  write disk _ buffer := (disk, .ok buffer.length)

def twoPartitions : Table UInt32 (DiskWrapper Blank) :=
  Table.empty.insert 0 ⟨⟨512⟩, some ⟨[⟨10, 1⟩, ⟨11, 1⟩]⟩⟩

end EosBase.Block
