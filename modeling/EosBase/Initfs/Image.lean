import EosBase.Lib.Bytes

/-!
# Initfs: reading an image

`initfs/src/lib.rs` and the packed structures of `initfs/src/types.rs`.  Only the
header and the place of the inode table are checked when an image is opened;
every other offset is checked when it is used.

`usize` has 64 bits here, so that a conversion from `u32` and the sum of two
such numbers are exact.
-/

namespace EosBase.Initfs

/-- How a function of the reader ends when it has no result. -/
inductive Failure where
  | panic
  /-- `Error`: invalid or corrupt initfs. -/
  | invalid
  deriving DecidableEq, Repr

abbrev Read := Except Failure

def orPanic {Value : Type} : Option Value → Read Value
  | some value => .ok value
  | none => .error .panic

def orInvalid {Value : Type} : Option Value → Read Value
  | some value => .ok value
  | none => .error .invalid

/-- `b"RedoxFtw"`. -/
def magic : List UInt8 := [0x52, 0x65, 0x64, 0x6f, 0x78, 0x46, 0x74, 0x77]

structure Header where
  magic : List UInt8
  inodeTableOffset : Nat
  initfsSize : Nat
  pageSize : Nat
  rootInode : Nat
  inodeCount : Nat
  bootstrapEntry : Nat
  deriving DecidableEq, Repr

namespace Header

def size : Nat := 34

def encode (header : Header) : List UInt8 :=
  header.magic ++ leBytes 4 header.inodeTableOffset ++ leBytes 8 header.initfsSize ++
    leBytes 2 header.pageSize ++ leBytes 2 header.rootInode ++ leBytes 2 header.inodeCount ++
    leBytes 8 header.bootstrapEntry

def decode (bytes : List UInt8) : Header where
  magic := bytes.take 8
  inodeTableOffset := ofLeBytes ((bytes.drop 8).take 4)
  initfsSize := ofLeBytes ((bytes.drop 12).take 8)
  pageSize := ofLeBytes ((bytes.drop 20).take 2)
  rootInode := ofLeBytes ((bytes.drop 22).take 2)
  inodeCount := ofLeBytes ((bytes.drop 24).take 2)
  bootstrapEntry := ofLeBytes ((bytes.drop 26).take 8)

end Header

structure InodeHeader where
  type : Nat
  length : Nat
  offset : Nat
  deriving DecidableEq, Repr

namespace InodeHeader

def size : Nat := 12

def encode (inode : InodeHeader) : List UInt8 :=
  leBytes 4 inode.type ++ leBytes 4 inode.length ++ leBytes 4 inode.offset

def decode (bytes : List UInt8) : InodeHeader where
  type := ofLeBytes (bytes.take 4)
  length := ofLeBytes ((bytes.drop 4).take 4)
  offset := ofLeBytes ((bytes.drop 8).take 4)

end InodeHeader

structure DirEntry where
  inode : Nat
  nameLen : Nat
  nameOffset : Nat
  deriving DecidableEq, Repr

namespace DirEntry

def size : Nat := 8

def encode (entry : DirEntry) : List UInt8 :=
  leBytes 2 entry.inode ++ leBytes 2 entry.nameLen ++ leBytes 4 entry.nameOffset

def decode (bytes : List UInt8) : DirEntry where
  inode := ofLeBytes (bytes.take 2)
  nameLen := ofLeBytes ((bytes.drop 2).take 2)
  nameOffset := ofLeBytes ((bytes.drop 4).take 4)

end DirEntry

inductive InodeType where
  | regularFile
  | executableFile
  | dir
  | link
  deriving DecidableEq, Repr

namespace InodeType

def toNat : InodeType → Nat
  | regularFile => 0
  | executableFile => 1
  | dir => 2
  | link => 3

def ofNat? : Nat → Option InodeType
  | 0 => some regularFile
  | 1 => some executableFile
  | 2 => some dir
  | 3 => some link
  | _ => none

end InodeType

/-- `plain::slice_from_bytes`: as many structures as fit. -/
def records {Record : Type} (size : Nat) (decode : List UInt8 → Record) (bytes : List UInt8) :
    List Record :=
  (List.range (bytes.length / size)).map fun index =>
    decode ((bytes.drop (index * size)).take size)

structure InitFs where
  base : List UInt8

structure InodeStruct where
  initfs : InitFs
  inodeId : Nat
  inode : InodeHeader

structure Entry where
  initfs : InitFs
  entry : DirEntry

namespace InitFs

def header (initfs : InitFs) : Read Header :=
  (orPanic (slice? initfs.base 0 Header.size)).map Header.decode

/-- `inode_table_size`, with `wrapping_mul`. -/
def inodeTableSize (initfs : InitFs) : Read Nat :=
  initfs.header.map fun header => header.inodeCount * InodeHeader.size % 2 ^ 32

def new (base : List UInt8) (requiredPageSize : Option Nat) : Read InitFs :=
  let this : InitFs := ⟨base⟩
  if base.length < Header.size then
    .error .invalid
  else if 2 ^ 32 ≤ base.length then
    .error .invalid
  else do
    let header ← this.header
    if header.magic ≠ magic then .error .invalid
    else if header.inodeTableOffset < Header.size then .error .invalid
    else do
      let inodeTableSize ← this.inodeTableSize
      let inodeTableEnd := header.inodeTableOffset + inodeTableSize
      -- `checked_add` on `u32`.
      if 2 ^ 32 ≤ inodeTableEnd then .error .invalid
      else if base.length % 2 ^ 32 < inodeTableEnd then .error .invalid
      else if requiredPageSize.any fun required => header.pageSize != required then
        .error .invalid
      else .ok this

/-- `inode_table`; the end of its range is a `wrapping_add` on `usize`. -/
def inodeTable (initfs : InitFs) : Read (List InodeHeader) := do
  let header ← initfs.header
  let size ← initfs.inodeTableSize
  let bytes ← orPanic (slice? initfs.base header.inodeTableOffset
    ((header.inodeTableOffset + size) % 2 ^ 64))
  return records InodeHeader.size InodeHeader.decode bytes

def rootInode (initfs : InitFs) : Read Nat :=
  initfs.header.map Header.rootInode

def inodeCount (initfs : InitFs) : Read Nat :=
  initfs.header.map Header.inodeCount

def getInode (initfs : InitFs) (inodeId : Nat) : Read (Option InodeStruct) :=
  initfs.inodeTable.map fun table =>
    table[inodeId]?.map fun inode => ⟨initfs, inodeId, inode⟩

end InitFs

inductive InodeKind where
  | file (inner : InodeStruct)
  | dir (inner : InodeStruct)
  | link (inner : InodeStruct)
  | unknown

namespace InodeStruct

def data (inode : InodeStruct) : Read (List UInt8) :=
  orInvalid (slice? inode.initfs.base inode.inode.offset (inode.inode.offset + inode.inode.length))

def ty (inode : InodeStruct) : Option InodeType :=
  InodeType.ofNat? inode.inode.type

def mode (inode : InodeStruct) : Nat :=
  match inode.ty with
  | some .regularFile => 0o444
  | some .executableFile => 0o555
  | some .dir => 0o555
  | some .link => 0o777
  | none => 0o000

def kind (inode : InodeStruct) : InodeKind :=
  match inode.ty with
  | some .dir => .dir inode
  | some .regularFile => .file inode
  | some .executableFile => .file inode
  | some .link => .link inode
  | none => .unknown

def entries (dir : InodeStruct) : Read (List DirEntry) :=
  dir.data.map (records DirEntry.size DirEntry.decode)

def entryCount (dir : InodeStruct) : Read Nat :=
  dir.entries.map fun entries => entries.length % 2 ^ 32

def getEntry (dir : InodeStruct) (idx : Nat) : Read (Option Entry) :=
  dir.entries.map fun entries => entries[idx]?.map fun entry => ⟨dir.initfs, entry⟩

end InodeStruct

def Entry.name (entry : Entry) : Read (List UInt8) :=
  orInvalid (slice? entry.initfs.base entry.entry.nameOffset
    (entry.entry.nameOffset + entry.entry.nameLen))

end EosBase.Initfs
