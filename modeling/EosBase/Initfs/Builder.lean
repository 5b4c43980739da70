import EosBase.Initfs.Image

/-!
# Initfs: building an image

`build_initfs` of `initfs/tools/src/lib.rs`.  Offsets are handed out page by page;
the table of a directory is reserved before its children are written and filled
in entry by entry, and the inodes are collected and written last.

Files that are read deliver all the bytes that are asked for, and files that are
written take them; what the file system can refuse beyond that is left out.
-/

namespace EosBase.Initfs

mutual

inductive EntryKind where
  | file (contents : List UInt8) (executable : Bool)
  | dir (entries : Entries)
  | link (path : List UInt8)

inductive Entries where
  | nil
  | cons (name : List UInt8) (kind : EntryKind) (rest : Entries)

end

def Entries.length : Entries → Nat
  | .nil => 0
  | .cons _ _ rest => rest.length + 1

inductive BuildError where
  /-- `expect`, `unwrap`, `assert` or an index out of range. -/
  | panic
  | maxLimitReached
  | fileTooLarge
  | fileOffsetTooHigh
  | tooManySubdirectories
  | directoryEntriesOffsetTooHigh
  | fileNameTooLong
  | fileNameOffsetTooHigh
  | inodeTableTooFarAway
  deriving DecidableEq, Repr

abbrev Build := Except BuildError

structure State where
  file : Blob
  offset : Nat
  maxSize : Nat
  inodeTable : List InodeHeader

structure WriteResult where
  size : Nat
  offset : Nat

def pageSize : Nat := 4096

def bufferSize : Nat := 8192

def nextMultipleOf (value unit : Nat) : Nat :=
  (value + unit - 1) / unit * unit

def narrow (bits : Nat) (error : BuildError) (value : Nat) : Build Nat :=
  if value < 2 ^ bits then .ok value else .error error

def bumpAlloc (state : State) (size : Nat) : Build (Nat × State) :=
  let stop := nextMultipleOf (state.offset + size) pageSize
  if stop ≤ state.maxSize then .ok (state.offset, { state with offset := stop })
  else .error .maxLimitReached

/-- The loop of `allocate_and_write_file`, for at most so many rounds.  Its
numbers are `u32`. -/
def writeChunks (contents : List UInt8) (size offset : Nat) : Nat → Nat → Blob → Blob
  | 0, _, file => file
  | rounds + 1, relativeOffset, file =>
    if relativeOffset < size then
      let allowedLength := min bufferSize (size - relativeOffset)
      writeChunks contents size offset rounds ((relativeOffset + bufferSize) % 2 ^ 32)
        (file.writeAllAt ((contents.drop relativeOffset).take allowedLength)
          ((offset + relativeOffset) % 2 ^ 32))
    else
      file

def allocateAndWriteFile (state : State) (contents : List UInt8) : Build (State × WriteResult) := do
  let size ← narrow 32 .fileTooLarge contents.length
  let (offset, state) ← bumpAlloc state size
  let offset ← narrow 32 .fileOffsetTooHigh offset
  return ({ state with file := writeChunks contents size offset size 0 state.file }, ⟨size, offset⟩)

def allocateAndWriteLink (state : State) (path : List UInt8) : Build (State × WriteResult) := do
  let size ← narrow 32 .panic path.length
  let (offset, state) ← bumpAlloc state size
  let offset ← narrow 32 .fileOffsetTooHigh offset
  return ({ state with file := state.file.writeAllAt path offset }, ⟨size, offset⟩)

def allocateInode (state : State) (ty : InodeType) (writeResult : WriteResult) :
    Build (Nat × State) := do
  let inode ← narrow 16 .panic state.inodeTable.length
  return (inode, { state with
    inodeTable := state.inodeTable ++ [⟨ty.toNat, writeResult.size, writeResult.offset⟩] })

def reserveTable (state : State) (count : Nat) : Build (State × WriteResult) := do
  let entryCount ← narrow 16 .tooManySubdirectories count
  let entryTableLength := entryCount * DirEntry.size
  let (offset, state) ← bumpAlloc state entryTableLength
  let offset ← narrow 32 .directoryEntriesOffsetTooHigh offset
  return (state, ⟨entryTableLength, offset⟩)

/-- An entry after its contents: its inode, its name, and its place in the table
of its directory. -/
def linkEntry (state : State) (entryTableOffset index : Nat) (name : List UInt8) (ty : InodeType)
    (writeResult : WriteResult) : Build State := do
  let index ← narrow 16 .panic index
  let (inode, state) ← allocateInode state ty writeResult
  let nameLen ← narrow 16 .fileNameTooLong name.length
  let (nameOffset, state) ← bumpAlloc state nameLen
  let nameOffset ← narrow 32 .fileNameOffsetTooHigh nameOffset
  let file := state.file.writeAllAt name nameOffset
  return { state with
    file := file.writeAllAt (DirEntry.encode ⟨inode, nameLen, nameOffset⟩)
      ((entryTableOffset + index * DirEntry.size) % 2 ^ 32) }

mutual

def writeKind (state : State) : EntryKind → Build (State × WriteResult × InodeType)
  | .dir entries => do
      let (state, writeResult) ← reserveTable state entries.length
      let state ← writeEntries state writeResult.offset 0 entries
      return (state, writeResult, .dir)
  | .file contents executable => do
      let (state, writeResult) ← allocateAndWriteFile state contents
      return (state, writeResult, if executable then .executableFile else .regularFile)
  | .link path => do
      let (state, writeResult) ← allocateAndWriteLink state path
      return (state, writeResult, .link)

def writeEntries (state : State) (entryTableOffset index : Nat) : Entries → Build State
  | .nil => .ok state
  | .cons name kind rest => do
      let (state, writeResult, ty) ← writeKind state kind
      let state ← linkEntry state entryTableOffset index name ty writeResult
      writeEntries state entryTableOffset (index + 1) rest

end

def allocateAndWriteDir (state : State) (dir : Entries) : Build (State × WriteResult) := do
  let (state, writeResult) ← reserveTable state dir.length
  let state ← writeEntries state writeResult.offset 0 dir
  return (state, writeResult)

def allocateContents (state : State) (dir : Entries) : Build (Nat × State) := do
  let (state, writeResult) ← allocateAndWriteDir state dir
  allocateInode state .dir writeResult

def inodeCount (state : State) : Build Nat :=
  narrow 16 .panic state.inodeTable.length

def writeInodes (inodeTableOffset : Nat) : Nat → List InodeHeader → Blob → Blob
  | _, [], file => file
  | index, inode :: rest, file =>
    writeInodes inodeTableOffset (index + 1) rest
      (file.writeAllAt inode.encode ((inodeTableOffset + index * InodeHeader.size) % 2 ^ 32))

def writeInodeTable (state : State) : Build (Nat × State) := do
  let count ← inodeCount state
  let (offset, state) ← bumpAlloc state (InodeHeader.size * count)
  let offset ← narrow 32 .inodeTableTooFarAway offset
  return (offset, { state with file := writeInodes offset 0 state.inodeTable state.file })

def elfEntry (data : List UInt8) : Build Nat :=
  if data.take 4 = [0x7f, 0x45, 0x4c, 0x46] then
    match (data[4]? : Option UInt8), (data[5]? : Option UInt8) with
    | some 1, some 1 => (slice? data 0x18 (0x18 + 4)).elim (.error .panic) (.ok ∘ ofLeBytes)
    | some 1, some 2 =>
      (slice? data 0x18 (0x18 + 4)).elim (.error .panic) (.ok ∘ ofLeBytes ∘ List.reverse)
    | some 2, some 1 => (slice? data 0x18 (0x18 + 8)).elim (.error .panic) (.ok ∘ ofLeBytes)
    | some 2, some 2 =>
      (slice? data 0x18 (0x18 + 8)).elim (.error .panic) (.ok ∘ ofLeBytes ∘ List.reverse)
    | _, _ => .error .panic
  else
    .error .panic

def buildInitfs (maxSize : Nat) (bootstrapCode : List UInt8) (root : Entries) : Build Blob := do
  let (headerOffset, state) ← bumpAlloc ⟨.empty, 0, maxSize, []⟩ 4096
  if headerOffset ≠ 0 then
    .error .panic
  else do
    let (state, _) ← allocateAndWriteFile state bootstrapCode
    let bootstrapEntry ← elfEntry bootstrapCode
    let (rootInode, state) ← allocateContents state root
    let (inodeTableOffset, state) ← writeInodeTable state
    let inodeCount ← inodeCount state
    return state.file.writeAllAt
      (Header.encode ⟨magic, inodeTableOffset, state.file.size, pageSize, rootInode, inodeCount,
          bootstrapEntry⟩) headerOffset

end EosBase.Initfs
