import EosBase.Lib.Table
import EosBase.Lib.Transition
import EosBase.Redox.Syscall

/-!
# Channels

`ipcd/src/chan.rs`.  A listener queues the numbers of the clients that connected
to it; accepting one makes a second client, and the two are each other's remote.
Numbers are not reused.

A request has no result when it panics.  Whether `post_fevent` succeeds and
whether bytes are valid UTF-8 belong to the request.  Requests that change
nothing (`fpath`, `fsync`, `fevent`, `F_GETFL`) are left out.
-/

namespace EosBase.Chan

open Redox

inductive Connection where
  | waiting
  | opened (remote : Nat)
  | closed
  deriving DecidableEq, Repr

structure Client where
  buffer : List UInt8
  remote : Connection
  deriving DecidableEq, Repr

def Client.default : Client := ⟨[], .waiting⟩

structure Listener where
  path : Option Name
  awaiting : List Nat
  deriving DecidableEq, Repr

inductive Extra where
  | client (client : Client)
  | listener (listener : Listener)
  | schemeRoot
  deriving DecidableEq, Repr

structure Handle where
  flags : Nat
  extra : Extra
  path : Option Name
  deriving DecidableEq, Repr

namespace Handle

def default : Handle := ⟨0, .client .default, none⟩

def accept (this : Handle) (remote : Nat) : Handle :=
  { default with
    flags := this.flags
    extra := .client { Client.default with remote := .opened remote } }

def connect (this : Handle) (other : Nat) : Result Handle :=
  match this.extra with
  | .listener listener =>
    .ok { this with
      extra := .listener { listener with awaiting := listener.awaiting ++ [other] } }
  | _ => .error .EBADF

def requireListener (this : Handle) : Result Listener :=
  match this.extra with
  | .listener listener => .ok listener
  | _ => .error .EBADF

def requireClient (this : Handle) : Result Client :=
  match this.extra with
  | .client client => .ok client
  | _ => .error .EBADF

end Handle

structure ChanScheme where
  handles : Table Nat Handle
  listeners : Table Name Nat
  nextId : Nat

inductive Reply where
  | thisScheme (number : Nat)
  /-- `OpenResult::WouldBlock`. -/
  | wouldBlock
  | count (length : Nat)
  | bytes (data : List UInt8)
  deriving DecidableEq, Repr

namespace ChanScheme

variable (this : ChanScheme)

def setHandle (id : Nat) (handle : Handle) : ChanScheme :=
  { this with handles := this.handles.insert id handle }

def addHandle (handle : Handle) : ChanScheme :=
  { this with handles := this.handles.insert this.nextId handle, nextId := this.nextId + 1 }

/-- A state with what a request returns; nothing after a panic. -/
abbrev Done := Option (ChanScheme × Result Reply)

def fail (error : Errno) : Done := some (this, .error error)

def connected (posted : Option Errno) (new : Handle) : Done :=
  match posted with
  | some error => this.fail error
  | none => some (this.addHandle new, .ok (.thisScheme this.nextId))

def openPath (path : Name) (flags : Nat) (posted : Option Errno) : Done :=
  let create : Bool := creating flags
  if create ∧ ¬ this.listeners.contains path then
    let listening : ChanScheme :=
      if path = [] then this
      else { this with listeners := this.listeners.insert path this.nextId }
    let listener : Listener := ⟨if path = [] then none else some path, []⟩
    some (listening.addHandle ⟨flags, .listener listener, none⟩, .ok (.thisScheme this.nextId))
  else if create ∧ flags &&& O_EXCL == O_EXCL then
    this.fail .EEXIST
  else
    match this.listeners.get? path with
    | none => this.fail .ENOENT
    | some listenerId =>
      match this.handles.get? listenerId with
      -- "orphan listener left over"
      | none => none
      | some listener =>
        match listener.connect this.nextId with
        | .error error => this.fail error
        | .ok listener =>
          (this.setHandle listenerId listener).connected posted
            { Handle.default with flags := flags }

def schemeRoot : ChanScheme × Nat :=
  (this.addHandle ⟨0, .schemeRoot, none⟩, this.nextId)

def openat (dirfd : Nat) (path : Name) (flags : Nat) (posted : Option Errno) : Done :=
  match this.handles.get? dirfd with
  | none => this.fail .EBADF
  | some handle =>
    match handle.extra with
    | .schemeRoot => this.openPath path flags posted
    | _ => this.fail .EACCES

/-- The loop of `dup("listen")`, which pops clients until one of them is still
there.  `awaiting` is what the queue of the listener still holds. -/
def acceptLoop (this : ChanScheme) (id : Nat) (handle : Handle) (path : Option Name)
    (posted : Option Errno) : List Nat → Done
  | [] =>
    some (this.setHandle id { handle with extra := .listener ⟨path, []⟩ },
      if nonblock handle.flags then .ok .wouldBlock
      else .error .EWOULDBLOCK)
  | remoteId :: awaiting =>
    let popped := this.setHandle id { handle with extra := .listener ⟨path, awaiting⟩ }
    match popped.handles.get? remoteId with
    | none => this.acceptLoop id handle path posted awaiting
    | some remote =>
      match remote.extra with
      | .client client =>
        let hooked := popped.setHandle remoteId
          { remote with extra := .client { client with remote := .opened this.nextId } }
        hooked.connected posted { handle.accept remoteId with path := path }
      -- "newly created handle can't possibly be a listener"
      | .listener _ => none
      | .schemeRoot => popped.fail .EBADF

def dupListen (id : Nat) (posted : Option Errno) : Done :=
  match this.handles.get? id with
  | none => this.fail .EBADF
  | some handle =>
    match handle.requireListener with
    | .error error => this.fail error
    | .ok listener => this.acceptLoop id handle listener.path posted listener.awaiting

def dupConnect (id : Nat) (posted : Option Errno) : Done :=
  match this.handles.get? id with
  | none => this.fail .EBADF
  | some handle =>
    match handle.connect this.nextId with
    | .error error => this.fail error
    | .ok handle => (this.setHandle id handle).connected posted .default

/-- `dup` with another buffer, which names a socket. -/
def dupName (id : Nat) (buf : List UInt8) (utf8 : Bool) (posted : Option Errno) : Done :=
  if buf = [] ∨ ¬ utf8 then
    this.fail .EBADF
  else
    match this.handles.get? id with
    | none => this.fail .EBADF
    | some handle =>
      if handle.path.isSome then
        this.fail .EBADF
      else
        match handle.extra with
        | .schemeRoot => this.fail .EBADF
        | _ => this.openPath buf handle.flags posted

/-- `b"listen"`. -/
def listenBytes : List UInt8 := [0x6c, 0x69, 0x73, 0x74, 0x65, 0x6e]

/-- `b"connect"`. -/
def connectBytes : List UInt8 := [0x63, 0x6f, 0x6e, 0x6e, 0x65, 0x63, 0x74]

def dup (id : Nat) (buf : List UInt8) (utf8 : Bool) (posted : Option Errno) : Done :=
  if buf = listenBytes then this.dupListen id posted
  else if buf = connectBytes then this.dupConnect id posted
  else this.dupName id buf utf8 posted

def write (id : Nat) (buf : List UInt8) (flags : Nat) (posted : Option Errno) : Done :=
  match this.handles.get? id with
  | none => this.fail .EBADF
  | some handle =>
    match handle.requireClient with
    | .error error => this.fail error
    | .ok client =>
      match client.remote with
      | .opened remoteId =>
        match this.handles.get? remoteId with
        | none => none
        | some remote =>
          match remote.extra with
          | .client client =>
            let buffer := client.buffer ++ buf
            let written := this.setHandle remoteId
              { remote with extra := .client { client with buffer := buffer } }
            -- readable is sent only if it wasn't readable before
            match posted with
            | some error =>
              if buffer.length = buf.length then written.fail error
              else some (written, .ok (.count buf.length))
            | none => some (written, .ok (.count buf.length))
          -- "somehow, a client was connected to a listener directly"
          | _ => none
      | .closed => this.fail .EPIPE
      | .waiting =>
        this.fail (if nonblock flags then .EAGAIN else .EWOULDBLOCK)

def read (id length flags : Nat) : Done :=
  match this.handles.get? id with
  | none => this.fail .EBADF
  | some handle =>
    match handle.requireClient with
    | .error error => this.fail error
    | .ok client =>
      if client.buffer ≠ [] then
        let len := min length client.buffer.length
        some (this.setHandle id
            { handle with extra := .client { client with buffer := client.buffer.drop len } },
          .ok (.bytes (client.buffer.take len)))
      else if client.remote = .closed then
        some (this, .ok (.bytes []))
      else
        this.fail (if nonblock flags then .EAGAIN else .EWOULDBLOCK)

def setFlags (id arg : Nat) : Done :=
  match this.handles.get? id with
  | none => this.fail .EBADF
  | some handle => some (this.setHandle id { handle with flags := arg }, .ok (.count 0))

/-- `on_close`; nothing after a panic. -/
def onClose (id : Nat) (posted : Option Errno) : Option ChanScheme :=
  match this.handles.get? id with
  -- "handle pointing to nothing"
  | none => none
  | some handle =>
    let removed := { this with handles := this.handles.erase id }
    match handle.extra with
    | .client client =>
      match client.remote with
      | .opened remoteId =>
        match removed.handles.get? remoteId with
        | none => none
        | some remote =>
          match remote.extra with
          | .client client =>
            let after := removed.setHandle remoteId
              { remote with extra := .client { client with remote := .closed } }
            -- readable is posted on end of file only if it wasn't readable before
            if client.buffer = [] ∧ posted ≠ none then none else some after
          -- "a client can't be connected to a listener!"
          | _ => none
      | _ => some removed
    | .listener listener =>
      match listener.path with
      | some path => some { removed with listeners := this.listeners.erase path }
      | none => some removed
    | .schemeRoot => some removed

end ChanScheme

inductive Request where
  | schemeRoot
  | openat (dirfd : Nat) (path : Name) (flags : Nat)
  | dup (id : Nat) (buf : List UInt8) (utf8 : Bool)
  | write (id : Nat) (buf : List UInt8) (flags : Nat)
  | read (id length flags : Nat)
  | setFlags (id arg : Nat)
  | close (id : Nat)
  deriving DecidableEq, Repr

/-- A request, and what `post_fevent` fails with while it is served, if it does. -/
structure Event where
  request : Request
  posted : Option Errno
  deriving DecidableEq, Repr

def step (this : ChanScheme) (event : Event) : Option (ChanScheme × Option (Result Reply)) :=
  match event.request with
  | .schemeRoot => some (this.schemeRoot.1, some (.ok (.thisScheme this.schemeRoot.2)))
  | .openat dirfd path flags => replied (this.openat dirfd path flags event.posted)
  | .dup id buf utf8 => replied (this.dup id buf utf8 event.posted)
  | .write id buf flags => replied (this.write id buf flags event.posted)
  | .read id length flags => replied (this.read id length flags)
  | .setFlags id arg => replied (this.setFlags id arg)
  | .close id => (this.onClose id event.posted).map fun after => (after, none)

def chan : System ChanScheme Event (Result Reply) where
  start := ⟨.empty, .empty, 0⟩
  step := step

end EosBase.Chan
