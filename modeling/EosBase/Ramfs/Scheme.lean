import EosBase.Lib.Transition
import EosBase.Ramfs.Filesystem
import EosBase.Redox.HandleMap

/-!
# The file system in memory as a scheme

`ramfs/src/scheme.rs`.  A request has no result when it panics, or when a count of links
or handles would drop below zero: a build with overflow checks panics there, and a release
build goes on with a count that has wrapped around.  Whether memory can be had belongs to
the request, as do the credentials that the process manager reports.

Calls that only look at a file (`fstat`, `fpath`, `relpathat`, `getdents`) and those
that do nothing are left out.
-/

namespace EosBase.Ramfs

open Redox

structure CallerCtx where
  uid : Nat
  gid : Nat
  deriving DecidableEq, Repr

def checkPermissions (flags singleMode : Nat) : Result Unit :=
  if flags &&& O_ACCMODE = O_RDONLY ∧ singleMode &&& 0o4 = 0 then
    .error .EACCES
  else if flags &&& O_ACCMODE = O_WRONLY ∧ singleMode &&& 0o2 = 0 then
    .error .EACCES
  else if flags &&& O_ACCMODE = O_RDWR ∧ singleMode &&& 0o6 ≠ 0o6 then
    .error .EACCES
  else
    .ok ()

/-- Is the access mode one of the two that allow to write? -/
def opensForWriting (flags : Nat) : Bool :=
  flags &&& O_ACCMODE == O_WRONLY || flags &&& O_ACCMODE == O_RDWR

namespace Filesystem

variable (this : Filesystem)

def setFile (inode : Nat) (file : File) : Filesystem :=
  { this with files := this.files.insert inode file }

/-- The end of `remove_dentry`: take links from an inode, and drop it with the last one.
The subtraction must not go below zero. -/
def dropLinks (inode : Nat) (info : File) (links : Nat) : Option (Filesystem × Result Unit) :=
  if info.nlink < links then
    none
  else if info.nlink - links = 0 ∧ info.openHandles = 0 then
    some ({ this with files := this.files.erase inode }, .ok ())
  else
    some (this.setFile inode { info with nlink := info.nlink - links }, .ok ())

def removeInode (inode : Nat) (directory : Bool) : Option (Filesystem × Result Unit) :=
  match this.files.get? inode with
  | none => some (this, .error Errno.EIO)
  | some info =>
    match info.data with
    | .file _ =>
      if directory then
        some (this, .error .EISDIR)
      else
        -- only the parent entry
        this.dropLinks inode info 1
    | .directory _ =>
      if !directory then
        some (this, .error .ENOTDIR)
      else
        -- both the parent entry and '.'
        this.dropLinks inode info 2

def removeTarget (parentInode entryInode : Nat) (directory : Bool) :
    Option (Filesystem × Result Unit) :=
  match (this.files.get? entryInode).map File.data with
  | some (.directory entries) =>
    if !directory then
      some (this, .error .EISDIR)
    else if entries.entries ≠ [] then
      some (this, .error .ENOTEMPTY)
    else
      match this.files.get? parentInode with
      | none => some (this, .error Errno.EIO)
      | some parent =>
        -- '..' of subdirectory
        if parent.nlink = 0 then
          none
        else
          (this.setFile parentInode { parent with nlink := parent.nlink - 1 }).removeInode
            entryInode directory
  | _ => this.removeInode entryInode directory

def takeOut (parentInode : Nat) (parent : File) (dentries : Table Name Nat) (name : Name) :
    Filesystem :=
  this.setFile parentInode { parent with data := .directory (dentries.erase name) }

def removeDentry (path : Name) (uid gid : Nat) (directory : Bool) :
    Option (Filesystem × Result Unit) :=
  match this.resolveExceptLast path uid gid with
  | none => none
  | some (.error error) => some (this, .error error)
  -- can't remove root
  | some (.ok (_, none)) => some (this, .error .EINVAL)
  | some (.ok (parentInode, some name)) =>
    match this.files.get? parentInode with
    | none => some (this, .error Errno.EIO)
    | some parent =>
      if currentPerm parent uid gid &&& 0o2 = 0 then
        some (this, .error .EACCES)
      else
        match parent.data with
        | .file _ => some (this, .error .ENOTDIR)
        | .directory dentries =>
          match dentries.get? name with
          | none => some (this, .error .ENOENT)
          | some entryInode =>
            (this.takeOut parentInode parent dentries name).removeTarget parentInode
              entryInode directory

def truncated (flags : Nat) (data : FileData) : Result FileData :=
  if flags &&& O_TRUNC = O_TRUNC ∧ opensForWriting flags then
    match data with
    | .directory _ => .error .EBADFD
    | .file _ => .ok (.file [])
  else
    .ok data

def openExisting (path : Name) (flags uid gid : Nat) : Option (Filesystem × Result Nat) :=
  match this.resolve path uid gid with
  | none => none
  | some (.error error) => some (this, .error error)
  | some (.ok inode) =>
    match this.files.get? inode with
    | none => some (this, .error Errno.EIO)
    | some file =>
      if flags &&& O_STAT = 0 ∧ flags &&& O_DIRECTORY ≠ 0 ∧
          file.mode &&& MODE_TYPE ≠ MODE_DIR then
        some (this, .error .ENOTDIR)
      else if flags &&& O_STAT = 0 ∧ flags &&& O_DIRECTORY = 0 ∧
          file.mode &&& MODE_TYPE = MODE_DIR then
        some (this, .error .EISDIR)
      else
        match checkPermissions flags (currentPerm file uid gid) with
        | .error error => some (this, .error error)
        | .ok () =>
          match truncated flags file.data with
          | .error error => some (this, .error error)
          | .ok data =>
            some (this.setFile inode
              { file with data := data, openHandles := file.openHandles + 1 }, .ok inode)

def newMode (flags type : Nat) : Nat :=
  let mode := flags &&& 0xFFFF
  if mode &&& MODE_TYPE = 0 then mode ||| type else mode

def newInode (flags uid gid parent : Nat) : Result File :=
  if flags &&& O_DIRECTORY ≠ 0 then
    if newMode flags MODE_DIR &&& MODE_TYPE ≠ MODE_DIR then
      .error .EINVAL
    else
      -- parent entry, "."
      .ok ⟨newMode flags MODE_DIR, uid, gid, 2, parent, 1, .directory .empty⟩
  else
    if newMode flags MODE_FILE &&& MODE_TYPE = MODE_DIR then
      .error .EINVAL
    else
      .ok ⟨newMode flags MODE_FILE, uid, gid, 1, parent, 1, .file []⟩

/-- Enter a new inode, which is in the map already, into its directory. -/
def linkInto (parentInode : Nat) (name : Name) (number : Nat) : Filesystem × Result Nat :=
  match this.files.get? parentInode with
  | none => (this, .error Errno.EIO)
  | some parent =>
    match parent.data with
    | .file _ => (this, .error Errno.EIO)
    | .directory entries =>
      (this.setFile parentInode
        { parent with data := .directory (entries.insertLast name number) }, .ok number)

def withInode (inode : File) : Filesystem :=
  ⟨this.files.insert (this.lastInodeNumber + 1) inode, this.lastInodeNumber + 1⟩

def create (path : Name) (flags uid gid : Nat) : Option (Filesystem × Result Nat) :=
  match this.resolveExceptLast path uid gid with
  | none => none
  | some (.error error) => some (this, .error error)
  -- cannot mkdir /
  | some (.ok (_, none)) => some (this, .error .EINVAL)
  | some (.ok (parentInode, some name)) =>
    -- `next_inode_number`
    if 2 ^ 64 ≤ this.lastInodeNumber + 1 then
      some (this, .error .ENFILE)
    else
      let advanced := { this with lastInodeNumber := this.lastInodeNumber + 1 }
      match newInode flags uid gid parentInode with
      | .error error => some (advanced, .error error)
      | .ok inode =>
        match checkPermissions flags (currentPerm inode uid gid) with
        | .error error => some (advanced, .error error)
        | .ok () =>
          some ((this.withInode inode).linkInto parentInode name (this.lastInodeNumber + 1))

def openInode (path : Name) (flags fcntlFlags uid gid : Nat) : Option (Filesystem × Result Nat) :=
  match this.resolve path 0 0 with
  | none => none
  | some answer =>
    if flags &&& O_CREAT ≠ 0 ∧ flags &&& O_EXCL ≠ 0 ∧ answer.isOk then
      some (this, .error .EEXIST)
    else if flags &&& O_CREAT ≠ 0 ∧ answer.isOk then
      this.openExisting path flags uid gid
    else if flags &&& O_CREAT ≠ 0 then
      if flags &&& O_STAT ≠ 0 then
        some (this, .error .EINVAL)
      else
        this.create path flags uid gid
    else
      this.openExisting path (flags ||| fcntlFlags) uid gid

/-- The file behind a handle is looked up before anything is done to it. -/
def onFile (inode : Nat) (change : File → Result File) : Filesystem × Result Unit :=
  match this.files.get? inode with
  | none => (this, .error .EBADFD)
  | some file =>
    match change file with
    | .error error => (this, .error error)
    | .ok changed => (this.setFile inode changed, .ok ())

end Filesystem

def resize (bytes : List UInt8) (size : Nat) : List UInt8 :=
  bytes.take size ++ List.replicate (size - bytes.length) 0

/-- What `write` does to a file; `memory` says whether memory can be had to extend it. -/
def File.write (file : File) (buffer : List UInt8) (offset : Nat) (memory : Bool) : Result File :=
  match file.data with
  | .directory _ => .error .EISDIR
  | .file bytes =>
    if file.mode &&& MODE_TYPE = MODE_DIR then
      .error .EBADFD
    else if 2 ^ 64 ≤ offset + buffer.length then
      .error .EOVERFLOW
    else if bytes.length < offset + buffer.length ∧ !memory then
      .error .ENOMEM
    else
      -- if there's a seek hole, fill it with 0 and continue writing
      let room := if bytes.length < offset + buffer.length then
        resize bytes (offset + buffer.length) else bytes
      .ok { file with
        data := .file (room.take offset ++ buffer ++ room.drop (offset + buffer.length)) }

def File.truncate (file : File) (size : Nat) (memory : Bool) : Result File :=
  if file.mode &&& MODE_TYPE = MODE_DIR then
    .error .EISDIR
  else
    match file.data with
    | .file bytes =>
      if bytes.length < size ∧ !memory then
        .error .ENOMEM
      else
        .ok { file with data := .file (resize bytes size) }
    | .directory _ => .error .EBADFD

inductive Handle where
  | inode (number : Nat)
  deriving DecidableEq, Repr

def Handle.asInode : Handle → Nat
  | inode number => number

structure Scheme where
  filesystem : Filesystem
  handles : HandleMap Handle

inductive Reply where
  | thisScheme (number : Nat)
  | done
  | count (length : Nat)
  | bytes (read : List UInt8)
  deriving DecidableEq, Repr

namespace Scheme

variable (this : Scheme)

def new : Scheme := ⟨.new, .new⟩

/-- A state with what a request returns; nothing after a panic. -/
abbrev Done := Option (Scheme × Result Reply)

def fail (error : Errno) : Done := some (this, .error error)

def settle {Value : Type} (this : Scheme) (reply : Value → Reply)
    (outcome : Filesystem × Result Value) : Scheme × Result Reply :=
  ({ this with filesystem := outcome.1 }, outcome.2.map reply)

def schemeRoot : Scheme × Nat :=
  ({ this with handles := (this.handles.insert (.inode Filesystem.ROOT_INODE)).1 },
    (this.handles.insert (.inode Filesystem.ROOT_INODE)).2)

def openat (dirfd : Nat) (path : Name) (flags fcntlFlags : Nat) (ctx : CallerCtx) : Done :=
  match this.handles.get dirfd with
  | .error error => this.fail error
  | .ok handle =>
    if handle.asInode ≠ Filesystem.ROOT_INODE then
      this.fail .EACCES
    else
      (this.filesystem.openInode path flags fcntlFlags ctx.uid ctx.gid).map fun
        | (filesystem, .error error) => ({ this with filesystem := filesystem }, .error error)
        | (filesystem, .ok inode) =>
          (⟨filesystem, (this.handles.insert (.inode inode)).1⟩,
            .ok (.thisScheme (this.handles.insert (.inode inode)).2))

def removeDentry (path : Name) (directory : Bool) (ctx : CallerCtx) : Done :=
  (this.filesystem.removeDentry path ctx.uid ctx.gid directory).map
    (this.settle fun _ => .done)

/-- `!` is applied to the number of the inode, of which it inverts all 64 bits. -/
def unlinkat (dirfd : Nat) (path : Name) (flags : Nat) (ctx : CallerCtx) : Done :=
  match this.handles.get dirfd with
  | .error error => this.fail error
  | .ok handle =>
    if 2 ^ 64 - 1 - handle.asInode ≠ Filesystem.ROOT_INODE then
      this.fail .EACCES
    else
      this.removeDentry path (flags &&& AT_REMOVEDIR == AT_REMOVEDIR) ctx

def read (fd length offset fcntlFlags : Nat) : Result (List UInt8) := do
  let handle ← this.handles.get fd
  let file ← okOr .EBADFD (this.filesystem.files.get? handle.asInode)
  if fcntlFlags &&& O_ACCMODE ≠ O_RDONLY ∧ fcntlFlags &&& O_ACCMODE ≠ O_RDWR then
    throw .EBADF
  match file.data with
  | .file bytes =>
    if file.mode &&& MODE_TYPE = MODE_DIR then
      throw .EBADFD
    return (bytes.drop offset).take length
  | .directory _ => throw .EISDIR

def onHandle (fd : Nat) (change : File → Result File) (reply : Reply) : Done :=
  match this.handles.get fd with
  | .error error => this.fail error
  | .ok handle =>
    some (this.settle (fun _ => reply) (this.filesystem.onFile handle.asInode change))

def write (fd : Nat) (buffer : List UInt8) (offset : Nat) (memory : Bool) : Done :=
  this.onHandle fd (fun file => file.write buffer offset memory) (.count buffer.length)

def ftruncate (fd size : Nat) (memory : Bool) : Done :=
  this.onHandle fd (fun file => file.truncate size memory) .done

def fchmod (fd mode : Nat) : Done :=
  this.onHandle fd (fun file => .ok { file with mode := mode ||| (file.mode &&& MODE_TYPE) }) .done

/-- The number of the handle is taken for the number of an inode. -/
def fchown (inode uid gid : Nat) : Done :=
  some (this.settle (fun _ => .done)
    (this.filesystem.onFile inode fun file => .ok { file with uid := uid, gid := gid }))

/-- `std_fs_call` for `Fchown`; `credentials` are those that the process manager reports
for the caller's process. -/
def stdFsFchown (id arg : Nat) (credentials : Result (Nat × Nat)) (ctx : CallerCtx) : Done :=
  match credentials with
  | .error error => this.fail error
  | .ok (uid, gid) =>
    if uid ≠ 0 ∧ (uid ≠ ctx.uid ∨ gid ≠ ctx.gid) then
      this.fail .EPERM
    else
      this.fchown id (arg % 2 ^ 32) (arg / 2 ^ 32 % 2 ^ 32)

/-- `on_close`; nothing after a panic. -/
def onClose (fd : Nat) : Option Scheme :=
  match this.handles.remove fd with
  | (_, none) => some this
  | (handles, some (.inode inode)) =>
    match this.filesystem.files.get? inode with
    | none => some { this with handles := handles }
    | some info =>
      if info.openHandles = 0 then
        none
      else if info.nlink = 0 ∧ info.openHandles - 1 = 0 then
        some ⟨{ this.filesystem with files := this.filesystem.files.erase inode }, handles⟩
      else
        some ⟨this.filesystem.setFile inode
          { info with openHandles := info.openHandles - 1 }, handles⟩

end Scheme

inductive Request where
  | schemeRoot
  | openat (dirfd : Nat) (path : Name) (flags fcntlFlags : Nat)
  | unlinkat (dirfd : Nat) (path : Name) (flags : Nat)
  /-- `remove_dentry` is public, and nothing but `unlinkat` calls it. -/
  | removeDentry (path : Name) (directory : Bool)
  | read (fd length offset fcntlFlags : Nat)
  | write (fd : Nat) (buffer : List UInt8) (offset : Nat) (memory : Bool)
  | ftruncate (fd size : Nat) (memory : Bool)
  | fchmod (fd mode : Nat)
  | fchown (fd uid gid : Nat)
  | stdFsFchown (fd arg : Nat) (credentials : Result (Nat × Nat))
  | onClose (fd : Nat)

structure Event where
  request : Request
  ctx : CallerCtx

def Scheme.serve (this : Scheme) (ctx : CallerCtx) :
    Request → Option (Scheme × Option (Result Reply))
  | .schemeRoot => some (this.schemeRoot.1, some (.ok (.thisScheme this.schemeRoot.2)))
  | .openat dirfd path flags fcntlFlags => replied (this.openat dirfd path flags fcntlFlags ctx)
  | .unlinkat dirfd path flags => replied (this.unlinkat dirfd path flags ctx)
  | .removeDentry path directory => replied (this.removeDentry path directory ctx)
  | .read fd length offset fcntlFlags =>
    some (this, some ((this.read fd length offset fcntlFlags).map .bytes))
  | .write fd buffer offset memory => replied (this.write fd buffer offset memory)
  | .ftruncate fd size memory => replied (this.ftruncate fd size memory)
  | .fchmod fd mode => replied (this.fchmod fd mode)
  | .fchown fd uid gid => replied (this.fchown fd uid gid)
  | .stdFsFchown fd arg credentials => replied (this.stdFsFchown fd arg credentials ctx)
  | .onClose fd => (this.onClose fd).map fun after => (after, none)

def ramfs : System Scheme Event (Result Reply) where
  start := .new
  step this event := this.serve event.ctx event.request

end EosBase.Ramfs
