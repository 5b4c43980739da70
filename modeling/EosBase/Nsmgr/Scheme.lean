import EosBase.Lib.Table
import EosBase.Lib.Transition
import EosBase.Redox.Syscall
import Mathlib.Data.Finset.Basic
import Mathlib.Data.Fintype.Basic

/-!
# The namespace manager

`bootstrap/src/initnsmgr.rs`: every process opens schemes through a namespace, and
holds a handle with a set of permissions on it.  A namespace is shared by the
handles that were derived from one another; forking makes a new one.

Namespaces that are shared (`Rc<RefCell<Namespace>>`) are positions in a list,
which only grows.  `getdents` and `fstat` change nothing and are left out.
-/

namespace EosBase.Nsmgr

open Redox

def ofKernel {Value : Type} : Except Nat Value → Served Value
  | .ok value => .ok value
  | .error code => .error (.errno (.kernel code))

inductive NsPermission where
  | list
  | insert
  | delete
  | schemeCreate
  deriving DecidableEq, Repr

instance : Fintype NsPermission :=
  ⟨{.list, .insert, .delete, .schemeCreate}, fun permission => by cases permission <;> decide⟩

abbrev NsPermissions := Finset NsPermission

inductive NsDup where
  | forkNs
  | shrinkPermissions
  | issueRegister
  deriving DecidableEq, Repr

/-- What `libredox`, `redox_path` and the standard library decide. -/
structure Crates where
  /-- `NsDup::try_from_raw`. -/
  tryFromRaw : Nat → Option NsDup
  /-- `NsPermissions::from_bits_truncate`. -/
  fromBitsTruncate : Nat → NsPermissions
  /-- `RedoxPath::from_absolute` and `as_parts`: the scheme and the reference. -/
  asParts : Name → Option (Name × Name)
  /-- `RedoxScheme::new`. -/
  redoxScheme : Name → Option Name
  /-- `from_utf8` accepts the bytes. -/
  isUtf8 : Name → Bool

structure Namespace where
  schemes : Table Name Fd

def readNum (buffer : List UInt8) : Served Nat :=
  (Redox.readNum wordSize buffer).mapError .errno

/-- `'*'`. -/
def star : UInt8 := 0x2a

def insertMatching (schemes : Table Name Fd) (start : Name) (copied : Table Name Fd) :
    Table Name Fd :=
  schemes.entries.foldl
    (fun copied entry =>
      if start.isPrefixOf entry.1 then copied.insert entry.1 entry.2 else copied)
    copied

def insertListed (schemes : Table Name Fd) (name : Name) (copied : Table Name Fd) : Table Name Fd :=
  if name.getLast? = some star then
    insertMatching schemes name.dropLast copied
  else
    match schemes.get? name with
    | some fd => copied.insert name fd
    | none => copied

namespace Namespace

/-- The loop of `fork`, on the bytes behind the cursor.  Every round takes at
least one word of them. -/
def forkLoop (crates : Crates) (this : Namespace) :
    Nat → List UInt8 → Table Name Fd → Served Namespace
  | 0, _, schemes => .ok ⟨schemes⟩
  | rounds + 1, buf, schemes =>
    if buf = [] then
      .ok ⟨schemes⟩
    else do
      let len ← readNum buf
      let rest := buf.drop wordSize
      if rest.length < len then
        .error .panic
      else
        let name := rest.take len
        if crates.isUtf8 name then
          forkLoop crates this rounds (rest.drop len)
            (insertListed this.schemes name schemes)
        else
          .error (.errno .EINVAL)

def fork (crates : Crates) (this : Namespace) (buf : List UInt8) : Served Namespace :=
  forkLoop crates this buf.length buf .empty

def getSchemeFd (this : Namespace) (scheme : Name) : Option Fd :=
  this.schemes.get? scheme

end Namespace

structure NamespaceAccess where
  namespace_ : Nat
  permission : NsPermissions

structure SchemeRegister where
  targetNamespace : Nat
  schemeName : Name

inductive Handle where
  | access (inner : NamespaceAccess)
  | register (inner : SchemeRegister)
  | list (inner : NamespaceAccess)

structure NamespaceScheme where
  namespaces : List Namespace
  handles : Table Nat Handle
  nextId : Nat
  schemeCreationCap : Fd

def highPermissions : NsPermissions := {.schemeCreate}

inductive Reply where
  /-- `OpenResult::ThisScheme`. -/
  | thisScheme (number : Nat)
  /-- `OpenResult::OtherScheme`. -/
  | otherScheme (fd : Fd)
  | unlinked
  | sent (count : Nat)
  deriving DecidableEq, Repr

namespace NamespaceScheme

variable (crates : Crates) (this : NamespaceScheme)

def getNsAccess (id : Nat) : Option NamespaceAccess :=
  match this.handles.get? id with
  | some (.access access) => some access
  | _ => none

/-- A handle under the next number, which wraps around. -/
def addHandle (handle : Handle) : NamespaceScheme :=
  { this with
    handles := this.handles.insert this.nextId handle
    nextId := (this.nextId + 1) % 2 ^ 64 }

def borrow (position : Nat) : Served Namespace :=
  match this.namespaces[position]? with
  | some found => .ok found
  | none => .error .panic

def setNamespace (position : Nat) (changed : Namespace) : NamespaceScheme :=
  { this with namespaces := this.namespaces.set position changed }

def addNamespace (schemes : Namespace) (permission : NsPermissions) : NamespaceScheme :=
  { this with namespaces := this.namespaces ++ [schemes] }.addHandle
    (.access ⟨this.namespaces.length, permission⟩)

def forkNamespace (position : Nat) (names : List UInt8) : Served (NamespaceScheme × Nat) := do
  let parent ← this.borrow position
  let newNamespace ← parent.fork crates names
  return (this.addNamespace newNamespace (Finset.univ \ highPermissions), this.nextId)

def shrinkPermissions (ns : NamespaceAccess) (permission : NsPermissions) : NamespaceScheme × Nat :=
  (this.addHandle (.access { ns with permission := ns.permission ∩ permission }), this.nextId)

/-- `"namespace"`. -/
def namespaceScheme : Name := [0x6e, 0x61, 0x6d, 0x65, 0x73, 0x70, 0x61, 0x63, 0x65]

/-- `"scheme-creation-cap"`. -/
def schemeCreationCapName : Name :=
  [0x73, 0x63, 0x68, 0x65, 0x6d, 0x65, 0x2d, 0x63, 0x72, 0x65, 0x61, 0x74, 0x69, 0x6f, 0x6e,
    0x2d, 0x63, 0x61, 0x70]

/-- `open_namespace_resource`; the kernel answers the `dup` of the capability. -/
def openNamespaceResource (nsAccess : NamespaceAccess) (reference : Name)
    (answer : Except Nat Fd) : Served Fd :=
  if reference = schemeCreationCapName then
    if .schemeCreate ∈ nsAccess.permission then ofKernel answer
    else .error (.errno .EACCES)
  else
    .error (.errno .EINVAL)

/-- `open_scheme_resource`; the kernel answers `openat_with_filter`. -/
def openSchemeResource (ns : Namespace) (scheme : Name) (answer : Except Nat Fd) : Served Fd :=
  match ns.getSchemeFd scheme with
  | some _ => ofKernel answer
  | none => .error (.errno .ENODEV)

def openat (fd : Nat) (path : Name) (answer : Except Nat Fd) :
    Served (NamespaceScheme × Reply) := do
  let nsAccess ← orErrno .ENOENT (this.getNsAccess fd)
  let (scheme, reference) ← orErrno .EINVAL (crates.asParts path)
  if scheme = namespaceScheme then do
    let resFd ← openNamespaceResource nsAccess reference answer
    return (this, .otherScheme resFd)
  else if scheme = [] then
    if .list ∈ nsAccess.permission then
      return (this.addHandle (.list nsAccess), .thisScheme this.nextId)
    else
      .error (.errno .EACCES)
  else do
    let ns ← this.borrow nsAccess.namespace_
    let resFd ← openSchemeResource ns scheme answer
    return (this, .otherScheme resFd)

def issueRegister (nsAccess : NamespaceAccess) (payload : List UInt8) :
    Served (NamespaceScheme × Nat) := do
  if crates.isUtf8 payload then do
    let schemeName ← orErrno .EINVAL (crates.redoxScheme payload)
    if .insert ∈ nsAccess.permission then
      return (this.addHandle (.register ⟨nsAccess.namespace_, schemeName⟩), this.nextId)
    else
      .error (.errno .EACCES)
  else
    .error (.errno .EINVAL)

def dupKind (nsAccess : NamespaceAccess) (payload : List UInt8) :
    NsDup → Served (NamespaceScheme × Nat)
  | .forkNs => this.forkNamespace crates nsAccess.namespace_ payload
  | .shrinkPermissions => do
      let bits ← readNum payload
      return this.shrinkPermissions nsAccess (crates.fromBitsTruncate bits)
  | .issueRegister => this.issueRegister crates nsAccess payload

def dup (id : Nat) (buf : List UInt8) : Served (NamespaceScheme × Reply) := do
  let nsAccess ← orErrno .ENOENT (this.getNsAccess id)
  let rawKind ← readNum buf
  let kind ← orErrno .EINVAL (crates.tryFromRaw rawKind)
  let (after, newId) ← this.dupKind crates nsAccess (buf.drop wordSize) kind
  return (after, .thisScheme newId)

/-- `unlinkat`; the kernel answers `unlinkat_with_filter`. -/
def unlinkat (fd : Nat) (path : Name) (answer : Except Nat Unit) :
    Served (NamespaceScheme × Reply) := do
  let nsAccess ← orErrno .ENOENT (this.getNsAccess fd)
  let ns ← this.borrow nsAccess.namespace_
  let (scheme, reference) ← orErrno .EINVAL (crates.asParts path)
  if reference = [] then
    if .delete ∈ nsAccess.permission then do
      let _ ← orErrno .ENODEV (ns.getSchemeFd scheme)
      return (this.setNamespace nsAccess.namespace_ ⟨ns.schemes.erase scheme⟩, .unlinked)
    else
      .error (.errno .EACCES)
  else do
    let _ ← orErrno .ENODEV (ns.getSchemeFd scheme)
    let _ ← ofKernel answer
    return (this, .unlinked)

def onClose (id : Nat) : NamespaceScheme :=
  { this with handles := this.handles.erase id }

def register (cap : SchemeRegister) (fd : Fd) : Served NamespaceScheme := do
  let ns ← this.borrow cap.targetNamespace
  if ns.schemes.contains cap.schemeName then
    .error (.errno .EEXIST)
  else
    return this.setNamespace cap.targetNamespace ⟨ns.schemes.insert cap.schemeName fd⟩

/-- `on_sendfd`; the kernel answers `obtain_fd`. -/
def onSendfd (id numFds : Nat) (obtained : Except Nat Fd) : Served (NamespaceScheme × Reply) :=
  match this.handles.get? id with
  | none => .error (.errno .ENOENT)
  | some (.register registerCap) =>
    if numFds = 0 then
      .ok (this, .sent 0)
    else if 1 < numFds then
      .error (.errno .EINVAL)
    else do
      let newFd ← ofKernel obtained
      let after ← this.register registerCap newFd
      return (after, .sent numFds)
  | some _ => .error (.errno .EACCES)

end NamespaceScheme

inductive Event where
  | openat (fd : Nat) (path : Name) (answer : Except Nat Fd)
  | dup (id : Nat) (buf : List UInt8)
  | unlinkat (fd : Nat) (path : Name) (answer : Except Nat Unit)
  | onClose (id : Nat)
  | onSendfd (id numFds : Nat) (obtained : Except Nat Fd)

def handle (crates : Crates) (this : NamespaceScheme) :
    Event → Served (NamespaceScheme × Option Reply)
  | .openat fd path answer => (this.openat crates fd path answer).map fun done => (done.1, done.2)
  | .dup id buf => (this.dup crates id buf).map fun done => (done.1, done.2)
  | .unlinkat fd path answer =>
    (this.unlinkat crates fd path answer).map fun done => (done.1, done.2)
  | .onClose id => .ok (this.onClose id, none)
  | .onSendfd id numFds obtained =>
    (this.onSendfd id numFds obtained).map fun done => (done.1, done.2)

/-- An error leaves the manager as it was, a panic ends it. -/
def step (crates : Crates) (this : NamespaceScheme) (event : Event) :
    Option (NamespaceScheme × Option (Except Errno Reply)) :=
  match handle crates this event with
  | .ok (after, reply) => some (after, reply.map .ok)
  | .error (.errno error) => some (this, some (.error error))
  | .error .panic => none

/-- `run`: the first handle has every permission on the root namespace. -/
def nsmgr (crates : Crates) (schemes : Table Name Fd) (schemeCreationCap : Fd) :
    System NamespaceScheme Event (Except Errno Reply) where
  start := NamespaceScheme.addNamespace ⟨[], .empty, 0, schemeCreationCap⟩ ⟨schemes⟩ Finset.univ
  step := step crates

end EosBase.Nsmgr
