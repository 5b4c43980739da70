import EosBase.Lib.Table
import EosBase.Lib.Transition
import EosBase.Uds.Message

/-!
# Unix domain datagram sockets

`ipcd/src/uds/dgram.rs`.  A socket is shared by the handles that refer to it
(`Rc<RefCell<Socket>>`); it is found under the number of its first handle, which
it keeps as `primary_id`.  Numbers are not reused.

The answers of the kernel, the random token of a bind and the bytes that are
valid UTF-8 belong to the request.  Requests that change nothing are left out.
-/

namespace EosBase.Uds.Dgram

open Redox

inductive State where
  | unbound
  | bound
  | closed
  deriving DecidableEq, Repr

structure Socket where
  primaryId : Nat
  path : Option Name
  state : State
  peer : Option Nat
  messages : List DataPacket
  /-- `SO_PASSCRED` is the only option that is ever stored. -/
  passcred : Bool
  fds : List Fd
  flags : Nat
  issuedToken : Option Nat

def Socket.new (primaryId flags : Nat) : Socket :=
  ⟨primaryId, none, .unbound, none, [], false, [], flags, none⟩

inductive Handle where
  | socket (rc : Nat)
  | schemeRoot
  deriving DecidableEq, Repr

structure UdsDgramScheme where
  handles : Table Nat Handle
  sockets : Table Nat Socket
  nextId : Nat
  socketPaths : Table Name Nat
  socketTokens : Table Nat Nat

/-- `"uds_dgram"`. -/
def schemeName : Name := [0x75, 0x64, 0x73, 0x5f, 0x64, 0x67, 0x72, 0x61, 0x6d]

def maxDgramMsgLen : Nat := 65536

inductive Reply where
  | count (length : Nat)
  | thisScheme (number : Nat)
  | bytes (data : List UInt8)
  | message (buffer : List UInt8) (length : Nat)
  | fds (moved : List Fd)
  /-- `OpenResult::WouldBlock`. -/
  | wouldBlock
  deriving DecidableEq, Repr

namespace UdsDgramScheme

variable (this : UdsDgramScheme)

def getSocket (id : Nat) : Option (Nat × Socket) :=
  match this.handles.get? id with
  | some (.socket rc) => (this.sockets.get? rc).map fun socket => (rc, socket)
  | _ => none

def setSocket (rc : Nat) (socket : Socket) : UdsDgramScheme :=
  { this with sockets := this.sockets.insert rc socket }

def addSocket (socket : Socket) : UdsDgramScheme :=
  { this with
    handles := this.handles.insert this.nextId (.socket this.nextId)
    sockets := this.sockets.insert this.nextId socket
    nextId := this.nextId + 1 }

def addHandle (handle : Handle) : UdsDgramScheme :=
  { this with
    handles := this.handles.insert this.nextId handle
    nextId := this.nextId + 1 }

abbrev Done := UdsDgramScheme × Result Reply

/-- `post_fevent` after the work was done. -/
def posting (posted : Option Errno) (reply : Reply) : Done :=
  match posted with
  | none => (this, .ok reply)
  | some error => (this, .error error)

def getConnectedPeer (id : Nat) : Result (Nat × Nat × Socket) := do
  let (_, socket) ← okOr .EBADF (this.getSocket id)
  let remoteId ← okOr .ENOTCONN socket.peer
  let (rc, remote) ← okOr .EPIPE (this.getSocket remoteId)
  if remote.state = .closed then .error .ECONNREFUSED
  else return (remoteId, rc, remote)

def openat (fd : Nat) (path : Name) (flags : Nat) : Done :=
  match this.handles.get? fd with
  | none => (this, .error .EBADF)
  | some (.socket _) => (this, .error .EACCES)
  | some .schemeRoot =>
    if path = [] ∧ creating flags then
      (this.addSocket (.new this.nextId flags), .ok (.thisScheme this.nextId))
    else
      (this, .error .EINVAL)

/-- `handle_bind`; the path is valid UTF-8 or none. -/
def handleBind (id : Nat) (path : Option Name) (token : Nat) : Done :=
  match path with
  | none => (this, .error .EINVAL)
  | some path =>
    if path = [] then
      (this, .error .EINVAL)
    else if this.socketPaths.contains path then
      (this, .error .EADDRINUSE)
    else
      match this.getSocket id with
      | none => (this, .error .EBADF)
      | some (rc, socket) =>
        if socket.state = .unbound then
          ({ this.setSocket rc
              { socket with path := some path, state := .bound, issuedToken := some token } with
            socketPaths := this.socketPaths.insert path rc
            socketTokens := this.socketTokens.insert token rc }, .ok (.count 0))
        else
          (this, .error .EINVAL)

def handleConnect (id : Nat) (tokenBuf : List UInt8) : Done :=
  match readNum 8 tokenBuf with
  | .error error => (this, .error error)
  | .ok token =>
    match (this.socketTokens.get? token).bind this.sockets.get? with
    | none => (this, .error .ECONNREFUSED)
    | some target =>
      match target.issuedToken with
      | none => (this, .error .ECONNREFUSED)
      | some targetSocketToken =>
        if targetSocketToken = token then
          match this.getSocket id with
          | none => (this, .error .EBADF)
          | some (rc, socket) =>
            (this.setSocket rc { socket with peer := some target.primaryId }, .ok (.count 0))
        else
          (this, .error .EACCES)

def handleUnbind (id : Nat) : Done :=
  match this.getSocket id with
  | none => (this, .error .EBADF)
  | some (rc, socket) =>
    if socket.state = .bound then
      let after := this.setSocket rc { socket with state := .unbound, path := none }
      match socket.path with
      | some path => ({ after with socketPaths := this.socketPaths.erase path }, .ok (.count 0))
      | none => (after, .ok (.count 0))
    else
      (this, .error .EINVAL)

/-- `handle_setsockopt` of `SO_PASSCRED`, or of another option. -/
def handleSetsockopt (id : Nat) (passcred : Bool) (value : List UInt8) : Done :=
  match this.getSocket id with
  | none => (this, .error .EBADF)
  | some (rc, socket) =>
    if passcred then
      match readNum 4 value with
      | .ok number =>
        (this.setSocket rc { socket with passcred := number != 0 }, .ok (.count value.length))
      | .error error => (this, .error error)
    else
      (this, .error .ENOPROTOOPT)

/-- `handle_sendmsg`; `creds` is what `get_uid_gid_from_pid` finds. -/
def handleSendmsg (id : Nat) (stream : List UInt8) (creds : Result Credential)
    (posted : Option Errno) : Done :=
  if stream = [] then
    (this, .error .EINVAL)
  else
    match this.getSocket id with
    | none => (this, .error .EBADF)
    | some (_, sender) =>
      let read := do
        let (_, rc, remote) ← this.getConnectedPeer id
        let cred ← creds
        let message ← DataPacket.fromStream stream sender.path cred
        return (rc, remote, message)
      match read with
      | .error error => (this, .error error)
      | .ok (rc, remote, message) =>
        (this.setSocket rc { remote with messages := remote.messages ++ [message] }).posting
          posted (.count message.payload.length)

def dropFds (fds : List Fd) (numFd : Nat) : List Fd × Result Unit :=
  Uds.dropFds .EINVAL fds numFd

def serializeToStream (message : DataPacket) (buffer : List UInt8) (socket : Socket)
    (nameBufSize iovSize : Nat) : Socket × Result Reply :=
  let named := (MsgWriter.new buffer).writeName message.ancillaryData.name nameBufSize schemeName
  let filled := named.writePayload message.payload message.payload.length iovSize
  let (ruled, described) := filled.writeRights message.ancillaryData.numFds
  let (fds, dropped) :=
    if described then (socket.fds, .ok ()) else dropFds socket.fds message.ancillaryData.numFds
  let socket := { socket with fds := fds }
  match dropped with
  | .error error => (socket, .error error)
  | .ok () =>
    let finished :=
      if socket.passcred then (ruled.writeCredentials message.ancillaryData.cred).1 else ruled
    (socket, .ok (.message finished.buffer finished.writtenLen))

def handleRecvmsg (id : Nat) (stream : List UInt8) : Done :=
  match this.getSocket id with
  | none => (this, .error .EBADF)
  | some (rc, socket) =>
    match socket.messages with
    | [] => (this, .error (if nonblock socket.flags then .EAGAIN else .EWOULDBLOCK))
    | message :: rest =>
      let socket := { socket with messages := rest }
      match readMsghdrInfo stream with
      | .error error => (this.setSocket rc socket, .error error)
      | .ok (nameLen, iovSize, cleared) =>
        let (socket, reply) := serializeToStream message cleared socket nameLen iovSize
        (this.setSocket rc socket, reply)

/-- `handle_connect_socketpair`; the new socket is dropped when posting fails. -/
def handleConnectSocketpair (id : Nat) (posted : Option Errno) : Done :=
  match this.getSocket id with
  | none => (this, .error .EBADF)
  | some (rc, socket) =>
    if socket.state = .closed then
      (this, .error .ECONNREFUSED)
    else
      let after := this.setSocket rc { socket with peer := some this.nextId }
      match posted with
      | some error => (after, .error error)
      | none =>
        (after.addSocket { Socket.new this.nextId 0 with peer := some id },
          .ok (.thisScheme this.nextId))

def handleRecvfd (id : Nat) : Done :=
  match this.getSocket id with
  | none => (this, .error .EBADF)
  | some (rc, socket) =>
    match socket.fds with
    | [] => (this, .error .EWOULDBLOCK)
    | fd :: rest => (this.setSocket rc { socket with fds := rest }, .ok (.fds [fd]))

/-- `handle_listen`: another handle for the same socket. -/
def handleListen (id : Nat) : Done :=
  match this.getSocket id with
  | none => (this, .error .EBADF)
  | some (rc, _) => (this.addHandle (.socket rc), .ok (.thisScheme this.nextId))

/-- `write_inner`; `cred` is the caller's. -/
def writeInner (id : Nat) (buf : List UInt8) (cred : Credential) (posted : Option Errno) : Done :=
  if maxDgramMsgLen < buf.length then
    (this, .error .EMSGSIZE)
  else
    match this.getSocket id with
    | none => (this, .error .EBADF)
    | some (_, sender) =>
      if sender.state = .closed then
        (this, .error .EPIPE)
      else
        match this.getConnectedPeer id with
        | .error error => (this, .error error)
        | .ok (_, rc, remote) =>
          let message := DataPacket.new buf (.new cred sender.path)
          (this.setSocket rc { remote with messages := remote.messages ++ [message] }).posting
            posted (.count buf.length)

def readInner (id length flags : Nat) : Done :=
  match this.getSocket id with
  | none => (this, .error .EBADF)
  | some (rc, socket) =>
    match socket.messages with
    | [] => (this, .error (if nonblock flags then .EAGAIN else .EWOULDBLOCK))
    | message :: rest =>
      (this.setSocket rc { socket with messages := rest },
        .ok (.bytes (message.payload.take length)))

/-- `sendfd_inner`; `obtained` is what `obtain_fd` fetched. -/
def sendfdInner (id : Nat) (obtained : Result (List Fd)) (posted : Option Errno) : Done :=
  match obtained with
  | .error error => (this, .error error)
  | .ok newFds =>
    if newFds = [] then
      (this, .ok (.count 0))
    else
      match this.getConnectedPeer id with
      | .error error => (this, .error error)
      | .ok (_, rc, remote) =>
        (this.setSocket rc { remote with fds := remote.fds ++ newFds }).posting posted
          (.count newFds.length)

/-- `recvfd_inner`; `moved` is whether `move_fd` succeeds. -/
def recvfdInner (id numFds : Nat) (moved : Bool) : Done :=
  if numFds = 0 then
    (this, .ok (.fds []))
  else
    match this.getSocket id with
    | none => (this, .error .EBADF)
    | some (rc, socket) =>
      if socket.fds.length < numFds then
        (this, if nonblock socket.flags then .ok .wouldBlock else .error .EWOULDBLOCK)
      else
        (this.setSocket rc { socket with fds := socket.fds.drop numFds },
          if moved then .ok (.fds (socket.fds.take numFds)) else .error .EPROTO)

def setFlags (id arg : Nat) : Done :=
  match this.getSocket id with
  | none => (this, .error .EBADF)
  | some (rc, socket) => (this.setSocket rc { socket with flags := arg }, .ok (.count 0))

def onClose (id : Nat) : UdsDgramScheme :=
  let after := { this with handles := this.handles.erase id }
  match this.getSocket id with
  | none => after
  | some (rc, socket) =>
    if socket.primaryId = id then
      { after.setSocket rc { socket with state := .closed, peer := none, path := none } with
        socketPaths := this.socketPaths.eraseOf socket.path
        socketTokens := this.socketTokens.eraseOf socket.issuedToken }
    else
      after

end UdsDgramScheme

inductive Event where
  | schemeRoot
  | openat (fd : Nat) (path : Name) (flags : Nat)
  | bind (id : Nat) (path : Option Name) (token : Nat)
  | connect (id : Nat) (tokenBuf : List UInt8)
  | unbind (id : Nat)
  | setsockopt (id : Nat) (passcred : Bool) (value : List UInt8)
  | sendmsg (id : Nat) (stream : List UInt8) (creds : Result Credential) (posted : Option Errno)
  | recvmsg (id : Nat) (stream : List UInt8)
  | dupConnect (id : Nat) (posted : Option Errno)
  | dupRecvfd (id : Nat)
  | dupListen (id : Nat)
  | write (id : Nat) (buf : List UInt8) (cred : Credential) (posted : Option Errno)
  | read (id length flags : Nat)
  | sendfd (id : Nat) (obtained : Result (List Fd)) (posted : Option Errno)
  | recvfd (id numFds : Nat) (moved : Bool)
  | setFlags (id arg : Nat)
  | close (id : Nat)

def replied (done : UdsDgramScheme.Done) : UdsDgramScheme × Option (Result Reply) :=
  (done.1, some done.2)

def handle (this : UdsDgramScheme) : Event → UdsDgramScheme × Option (Result Reply)
  | .schemeRoot => (this.addHandle .schemeRoot, some (.ok (.thisScheme this.nextId)))
  | .openat fd path flags => replied (this.openat fd path flags)
  | .bind id path token => replied (this.handleBind id path token)
  | .connect id tokenBuf => replied (this.handleConnect id tokenBuf)
  | .unbind id => replied (this.handleUnbind id)
  | .setsockopt id passcred value => replied (this.handleSetsockopt id passcred value)
  | .sendmsg id stream creds posted =>
    replied (this.handleSendmsg id stream creds posted)
  | .recvmsg id stream => replied (this.handleRecvmsg id stream)
  | .dupConnect id posted => replied (this.handleConnectSocketpair id posted)
  | .dupRecvfd id => replied (this.handleRecvfd id)
  | .dupListen id => replied (this.handleListen id)
  | .write id buf cred posted => replied (this.writeInner id buf cred posted)
  | .read id length flags => replied (this.readInner id length flags)
  | .sendfd id obtained posted => replied (this.sendfdInner id obtained posted)
  | .recvfd id numFds moved => replied (this.recvfdInner id numFds moved)
  | .setFlags id arg => replied (this.setFlags id arg)
  | .close id => (this.onClose id, none)

def dgram : System UdsDgramScheme Event (Result Reply) where
  start := ⟨.empty, .empty, 0, .empty, .empty⟩
  step this event := some (handle this event)

end EosBase.Uds.Dgram
