import EosBase.Lib.Transition
import EosBase.Redox.HandleMap
import Mathlib.Logic.Function.Basic

/-!
# The socket schemes of the network stack

A `SocketScheme` counts, for every socket of the stack, the handles that refer to it, so
that the socket leaves the socket set with the last of them.  The counts are exact as
long as no connection is accepted and no ICMP socket is given up half way.
-/

namespace EosBase.Netstack

open Redox Function HandleMap

structure Endpoint where
  addr : Option UInt32
  port : UInt16

structure SocketFile where
  flags : Nat
  /-- Where a TCP socket listens. -/
  data : Option Endpoint
  socketHandle : Nat
  readEnabled : Bool
  writeEnabled : Bool

namespace SocketFile

def cloneWithData (this : SocketFile) (data : Option Endpoint) : SocketFile :=
  { this with data := data }

def newWithData (socketHandle : Nat) (data : Option Endpoint) : SocketFile :=
  ⟨0, data, socketHandle, true, true⟩

def nonblocking (this : SocketFile) : Bool :=
  nonblock this.flags

end SocketFile

inductive Setting where
  | hopLimit
  | readTimeout
  | writeTimeout

structure SettingFile where
  fd : Nat
  socketHandle : Nat
  setting : Setting

inductive SchemeFile where
  | setting (file : SettingFile)
  | socket (file : SocketFile)

namespace SchemeFile

def socketHandle : SchemeFile → Nat
  | .setting file => file.socketHandle
  | .socket file => file.socketHandle

/-- The file that `dup` makes of this one when no connection is accepted. -/
def copy : SchemeFile → SchemeFile
  | .setting file => .socket (.newWithData file.socketHandle none)
  | .socket file => .socket (file.cloneWithData file.data)

end SchemeFile

structure NullFile where
  flags : Nat
  uid : Nat
  gid : Nat
  readEnabled : Bool
  writeEnabled : Bool

inductive Handle where
  | schemeRoot
  | null (file : NullFile)
  | file (file : SchemeFile)

def Handle.refers (socketHandle : Nat) : Handle → Bool
  | .file opened => opened.socketHandle == socketHandle
  | _ => false

inductive Path where
  | notUtf8
  | empty
  | hopLimit
  | readTimeout
  | writeTimeout
  | listen
  | other
  deriving DecidableEq

inductive Protocol where
  | tcp
  | udp
  | icmp
  deriving DecidableEq

/-- What `new_socket` comes to.  An ICMP socket is in the set before its identifier is
drawn and bound, and stays there when none is left or the binding fails. -/
inductive NewSocket where
  | refused (error : Errno)
  | abandoned (socketHandle : Nat) (error : Errno)
  | made (socketHandle : Nat) (data : Option Endpoint)

structure SocketScheme where
  handles : HandleMap Handle
  refCounts : Nat → Option Nat
  socketSet : Nat → Bool

/-- `SocketT::dup` on a file whose socket is in the set or is not; the socket is `active`
when it has a connection, and the set gives the next socket the handle `fresh`. -/
def Protocol.dup (file : SchemeFile) (path : Path) (present active : Bool) (fresh : Nat) :
    Protocol → Option (Result (Option (SchemeFile × Option (Nat × Option Endpoint))))
  | .icmp => some (.error .EBADF)
  | .udp =>
    if path = .listen then some (.error .EAFNOSUPPORT)
    else if present then some (.ok (some (file.copy, none)))
    else none
  | .tcp =>
    if !present then none
    else if path = .listen then
      match file with
      | .setting _ => some (.error .EBADF)
      | .socket tcpHandle =>
        match tcpHandle.data with
        | none => some (.error .EINVAL)
        | some endpoint =>
          if active then
            some (.ok (some (.socket (tcpHandle.cloneWithData none), some (fresh, endpoint))))
          else if tcpHandle.nonblocking then some (.error .EAGAIN)
          else some (.ok none)
    else some (.ok (some (file.copy, none)))

variable {protocol : Protocol} {fresh : Nat} {path : Path} {active : Bool}

/-- Without a connection to accept, `dup` makes a file for the same socket. -/
theorem Protocol.of_dup {file new present update}
    (made : protocol.dup file path present active fresh = some (.ok (some (new, update)))) :
    (new = file.copy ∧ update = none) ∨ ((protocol = .tcp ∧ path = .listen ∧ active = true) ∧
        ∃ opened endpoint, file = .socket opened ∧ opened.data = some endpoint) := by
  cases protocol with
  | icmp => cases made
  | udp => grind [Protocol.dup]
  | tcp => cases file <;> grind [Protocol.dup]

def bump (counts : Nat → Option Nat) (socketHandle : Nat) : Nat → Option Nat :=
  update counts socketHandle (some ((counts socketHandle).getD 0 + 1))

namespace SocketScheme

variable (this : SocketScheme)

def new : SocketScheme := ⟨(HandleMap.new.insert .schemeRoot).1, fun _ => none, fun _ => false⟩

/-- `socket_set.add`, which gives out a handle that is not in use. -/
def add (socketHandle : Nat) : Option SocketScheme :=
  if this.socketSet socketHandle then none
  else some { this with socketSet := update this.socketSet socketHandle true }

def insert (handle : Handle) : SocketScheme × Result Nat :=
  ({ this with handles := (this.handles.insert handle).1 }, .ok (this.handles.insert handle).2)

def openInner (path : Path) (flags uid gid : Nat) (readEnabled writeEnabled : Bool)
    (new : NewSocket) : Option (SocketScheme × Result Nat) :=
  if path = .empty then
    some (this.insert (.null ⟨flags, uid, gid, readEnabled, writeEnabled⟩))
  else
    match new with
    | .refused error => some (this, .error error)
    | .abandoned socketHandle error =>
      (this.add socketHandle).map fun this => (this, .error error)
    | .made socketHandle data =>
      (this.add socketHandle).map fun this =>
        insert { this with refCounts := update this.refCounts socketHandle (some 1) }
          (.file (.socket ⟨flags, data, socketHandle, readEnabled, writeEnabled⟩))

def openat (fd : Nat) (path : Path) (flags uid gid : Nat) (new : NewSocket) :
    Option (SocketScheme × Result Nat) :=
  match this.handles.get fd with
  | .error error => some (this, .error error)
  | .ok .schemeRoot => this.openInner path flags uid gid true true new
  | .ok _ => some (this, .error .EACCES)

def recount (old new : Nat) : Nat → Option Nat :=
  bump (update this.refCounts old (some ((this.refCounts old).getD 0 - 1))) new

def attach (new : SchemeFile) : SocketScheme × Result Nat :=
  insert { this with refCounts := bump this.refCounts new.socketHandle } (.file new)

/-- The rest of `dup`: the old file may have to go on with another socket. -/
def link (fd : Nat) (file new : SchemeFile) :
    Option (Nat × Option Endpoint) → Option (SocketScheme × Result Nat)
  | none => some (this.attach new)
  | some (socketHandle, data) =>
    (this.add socketHandle).map fun this =>
      match file with
      | .setting _ => this.attach new
      | .socket file =>
        attach { this with
          refCounts := this.recount file.socketHandle new.socketHandle
          handles := this.handles.set fd
            (.file (.socket { file with socketHandle := socketHandle, data := data })) } new

def dup (protocol : Protocol) (fd : Nat) (path : Path) (active : Bool) (fresh : Nat)
    (new : NewSocket) : Option (SocketScheme × Result Nat) :=
  if path = .notUtf8 then some (this, .error .EINVAL)
  else
    match this.handles.get fd with
    | .error error => some (this, .error error)
    | .ok .schemeRoot => some (this, .error .EBADF)
    | .ok (.null null) =>
      this.openInner path null.flags null.uid null.gid null.readEnabled null.writeEnabled new
    | .ok (.file file) =>
      let setting kind := this.link fd file (.setting ⟨fd, file.socketHandle, kind⟩) none
      match path with
      | .hopLimit => setting .hopLimit
      | .readTimeout => setting .readTimeout
      | .writeTimeout => setting .writeTimeout
      | _ =>
        match protocol.dup file path (this.socketSet file.socketHandle) active fresh with
        | none => none
        | some (.error error) => some (this, .error error)
        | some (.ok none) => some (this, .error .EWOULDBLOCK)
        | some (.ok (some (new, update))) => this.link fd file new update

/-- `on_close`.  There is no result when the socket is not in the set. -/
def onClose (fd : Nat) : Option SocketScheme :=
  let closed := { this with handles := (this.handles.remove fd).1 }
  match this.handles.get? fd with
  | some (.file file) =>
    let socketHandle := file.socketHandle
    let removed := { closed with
      refCounts := update this.refCounts socketHandle none
      socketSet := update this.socketSet socketHandle false }
    if this.socketSet socketHandle then
      match this.refCounts socketHandle with
      | none => some removed
      | some 0 => some removed
      | some 1 => some removed
      | some (count + 1) =>
        some { closed with refCounts := update this.refCounts socketHandle (some count) }
    else none
  | some _ => some closed
  | none => some this

end SocketScheme

inductive Request where
  | openat (fd : Nat) (path : Path) (flags uid gid : Nat) (new : NewSocket)
  | dup (fd : Nat) (path : Path) (active : Bool) (fresh : Nat) (new : NewSocket)
  | onClose (fd : Nat)

def socketScheme (protocol : Protocol) : System SocketScheme Request (Result Nat) where
  start := .new
  step this
    | .openat fd path flags uid gid new => replied (this.openat fd path flags uid gid new)
    | .dup fd path active fresh new => replied (this.dup protocol fd path active fresh new)
    | .onClose fd => (this.onClose fd).map (·, none)

def SocketScheme.references (this : SocketScheme) (socketHandle : Nat) : Nat :=
  this.handles.count (Handle.refers socketHandle)

structure Exact (this : SocketScheme) : Prop where
  counted : ∀ socketHandle, (this.refCounts socketHandle).getD 0 = this.references socketHandle
  listed : ∀ socketHandle, this.socketSet socketHandle = true ↔ 0 < this.references socketHandle

def NewSocket.Kept : NewSocket → Prop
  | .abandoned _ _ => False
  | _ => True

/-- No ICMP socket is given up half way, and no connection is accepted. -/
def Clean (protocol : Protocol) (this : SocketScheme) : Request → Prop
  | .openat _ _ _ _ _ new => new.Kept
  | .dup fd path active _ new =>
    new.Kept ∧ ∀ file endpoint, this.handles.get? fd = some (.file (.socket file)) →
      file.data = some endpoint → ¬ (protocol = .tcp ∧ path = .listen ∧ active = true)
  | .onClose _ => True

section Requests

variable {this : SocketScheme} {fd : Nat} {flags uid gid : Nat} {readEnabled writeEnabled : Bool}
  {file : SchemeFile}

namespace Exact

variable (exact : Exact this)

include exact

theorem insert {handle} (other : ∀ socket, handle.refers socket = false) :
    Exact (this.insert handle).1 := by
  have same : ∀ socket, (this.insert handle).1.references socket = this.references socket := by
    intro socket
    refine (count_insert _).trans ?_
    rw [other]
    rfl
  constructor
  · intro socket
    rw [same]
    exact exact.counted socket
  · intro socket
    rw [same]
    exact exact.listed socket

theorem enters {counts set} (counted : ∀ socket, (counts socket).getD 0 =
      (this.refCounts socket).getD 0 + if file.socketHandle = socket then 1 else 0)
    (listed : ∀ socket, set socket = true ↔
      this.socketSet socket = true ∨ file.socketHandle = socket) :
    Exact ⟨(this.handles.insert (.file file)).1, counts, set⟩ := by
  have more : ∀ socket, SocketScheme.references
      ⟨(this.handles.insert (.file file)).1, counts, set⟩ socket =
        this.references socket + if file.socketHandle = socket then 1 else 0 := by
    intro socket
    refine (count_insert _).trans ?_
    simp [Handle.refers, SocketScheme.references]
  constructor
  · intro socket
    rw [more, ← exact.counted]
    exact counted socket
  · intro socket
    have before := exact.listed socket
    grind

section

variable (found : this.handles.get? fd = some (.file file))

include found

theorem leaves {counts set} (counted : ∀ socket, (this.refCounts socket).getD 0 =
      (counts socket).getD 0 + if file.socketHandle = socket then 1 else 0)
    (listed : ∀ socket, set socket = true ↔
      this.socketSet socket = true ∧ 0 < (counts socket).getD 0) :
    Exact ⟨(this.handles.remove fd).1, counts, set⟩ := by
  have fewer : ∀ socket, SocketScheme.references ⟨(this.handles.remove fd).1, counts, set⟩ socket +
        (if file.socketHandle = socket then 1 else 0) = this.references socket := by
    intro socket
    have removed := count_remove (Handle.refers socket) found
    simpa [Handle.refers, SocketScheme.references] using removed
  constructor
  · intro socket
    have before := exact.counted socket
    rw [counted, ← fewer] at before
    exact Nat.add_right_cancel before
  · intro socket
    have before := exact.listed socket
    grind [exact.counted socket]

theorem referred :
    this.socketSet file.socketHandle = true ∧ 0 < (this.refCounts file.socketHandle).getD 0 := by
  have one := count_remove (Handle.refers file.socketHandle) found
  have some : 0 < this.references file.socketHandle := by
    simp only [Handle.refers, beq_self_eq_true, if_true] at one
    exact Nat.lt_of_lt_of_eq (Nat.succ_pos _) one
  exact ⟨(exact.listed _).mpr some, by rwa [exact.counted]⟩

end

theorem openInner {new} (kept : new.Kept) : Ends (fun done => Exact done.1)
    (this.openInner path flags uid gid readEnabled writeEnabled new) := by
  unfold SocketScheme.openInner
  split
  · exact exact.insert fun _ => rfl
  cases new with
  | refused error =>
    exact exact
  | abandoned => exact kept.elim
  | made socket data =>
    refine .map ?_
    unfold SocketScheme.add
    split
    · trivial
    next fresh =>
      have unused : (this.refCounts socket).getD 0 = 0 := by
        rw [exact.counted]
        exact Nat.eq_zero_of_not_pos (mt (exact.listed socket).mpr fresh)
      apply exact.enters
      · simp only [update_apply, SchemeFile.socketHandle]
        grind
      · simp only [update_apply, SchemeFile.socketHandle]
        grind

theorem onClose (fd : Nat) : ∃ after, this.onClose fd = some after ∧ Exact after := by
  unfold SocketScheme.onClose
  split
  next file found =>
    obtain ⟨present, positive⟩ := exact.referred found
    rw [if_pos present]
    split
    next vacant => simp [vacant] at positive
    next zero => simp [zero] at positive
    all_goals
      refine ⟨_, rfl, exact.leaves found (fun other => ?_) (fun other => ?_)⟩
      · grind
      · have listed := exact.listed other
        have counted := exact.counted other
        grind
  next handle other found =>
    have same : ∀ socket, SocketScheme.references { this with
        handles := (this.handles.remove fd).1 } socket = this.references socket := by
      intro socket
      have removed := count_remove (Handle.refers socket) found
      cases handle with
      | file file => exact absurd rfl (other file)
      | schemeRoot => exact removed
      | null => exact removed
    exact ⟨_, rfl, fun one => (exact.counted one).trans (same one).symm,
      fun one => (exact.listed one).trans (by rw [same])⟩
  · exact ⟨_, rfl, exact⟩

theorem dup {new} (clean : Clean protocol this (.dup fd path active fresh new)) :
    Ends (fun done => Exact done.1) (this.dup protocol fd path active fresh new) := by
  unfold SocketScheme.dup
  split
  · exact exact
  split
  · exact exact
  · exact exact
  · exact exact.openInner clean.1
  next file opened =>
    have found := get_ok opened
    have present := (exact.referred found).1
    have copies : ∀ {new : SchemeFile}, new.socketHandle = file.socketHandle →
        Ends (fun done => Exact done.1) (this.link fd file new none) := by
      intro new same
      apply exact.enters
      · simp only [bump, update_apply]
        grind
      · grind
    split
    · exact copies rfl
    · exact copies rfl
    · exact copies rfl
    split
    · trivial
    · exact exact
    · exact exact
    next made =>
      rcases Protocol.of_dup made with ⟨rfl, rfl⟩ | ⟨accepts, listener, endpoint, rfl, listens⟩
      · exact copies (by cases file <;> rfl)
      · exact absurd accepts (clean.2 listener endpoint found listens)

end Exact

end Requests

/-- While nothing is accepted or given up half way, the counts are exact, every handle can
be closed, and without handles there are no sockets. -/
theorem references_exact (protocol : Protocol) {state : SocketScheme}
    (reached : (socketScheme protocol).ReachableWhile (Clean protocol) state) :
    Exact state ∧ (∀ fd, ∃ after, state.onClose fd = some after ∧ Exact after) ∧
      ((∀ fd, state.handles.get? fd = none) → ∀ socket, state.socketSet socket = false) := by
  have exact : Exact state := by
    apply reached.invariant
    · have empty : Exact ⟨.new, fun _ => none, fun _ => false⟩ :=
        ⟨fun _ => rfl, fun _ => iff_of_false Bool.false_ne_true (Nat.lt_irrefl 0)⟩
      exact empty.insert fun _ => rfl
    · intro this event after output _ exact clean stepped
      cases event with
      | openat fd path flags uid gid new =>
        obtain ⟨reply, _, done⟩ := of_replied stepped
        unfold SocketScheme.openat at done
        split at done
        · cases done
          exact exact
        · exact (exact.openInner clean).of_eq done
        · cases done
          exact exact
      | dup fd path active fresh new =>
        obtain ⟨reply, _, done⟩ := of_replied stepped
        exact (exact.dup clean).of_eq done
      | onClose fd =>
        obtain ⟨closed, done, kept⟩ := exact.onClose fd
        simp only [socketScheme, done, Option.map_some] at stepped
        cases stepped
        exact kept
  refine ⟨exact, exact.onClose, ?_⟩
  intro closed socket
  rw [← Bool.not_eq_true, exact.listed, Nat.not_lt, Nat.le_zero]
  apply (count_eq_zero_iff _).mpr
  intro fd handle found
  cases (closed fd).symm.trans found

theorem references_exact_dup : ∃ state : SocketScheme,
    (state.references 5 = 2 ∧ state.refCounts 5 = some 2) ∧ Exact state := by
  have start : (socketScheme .udp).ReachableWhile (Clean .udp) .new := ⟨[], .start⟩
  have opened := start.step (show Clean .udp _ (.openat 1 .other 0 0 0 (.made 5 none)) from trivial)
    rfl
  have copied := opened.step (show Clean .udp _ (.dup 2 .other false 0 (.refused .EINVAL)) from
    ⟨trivial, fun _ _ _ _ accepts => by cases accepts.1⟩) rfl
  exact ⟨_, by decide +kernel, (references_exact .udp copied).1⟩

/-- A listener accepts a connection, and both handles are closed: the socket of the
connection stays in the set. -/
theorem accepted_socket_leaks : ∃ state, (socketScheme .tcp).Reachable state ∧
    (state.handles.handles.keys = [1] ∧ state.socketSet 0 = true) := by
  apply System.reaches_replay
    [.openat 1 .other 0 0 0 (.made 0 (some ⟨none, 80⟩)), .dup 2 .listen true 1 (.refused .EINVAL),
      .onClose 2, .onClose 3]
  decide +kernel

end EosBase.Netstack
