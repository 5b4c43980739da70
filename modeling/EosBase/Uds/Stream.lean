import EosBase.Lib.Table
import EosBase.Lib.Transition
import EosBase.Uds.Message

/-!
# Unix domain stream sockets

`ipcd/src/uds/stream.rs`.  Every socket has one handle and is found under its
number (`primary_id`), also after the handle was closed, since a registry may
still refer to it.  Numbers are not reused.

A request has no result when it panics: when a socket would be borrowed twice, or
when a buffer is asked for that no memory can hold.  The answers of the kernel,
the random token of a bind and the bytes that are valid UTF-8 belong to the
request.  Requests that change nothing, and the credentials that only they
report, are left out.
-/

namespace EosBase.Uds.Stream

open Redox

structure Connection where
  peer : Nat
  packets : List DataPacket
  fds : List Fd
  isPeerShutdown : Bool
  deriving DecidableEq, Repr

def Connection.new (peer : Nat) : Connection := ⟨peer, [], [], false⟩

inductive State where
  | unbound
  | bound
  | listening
  | connecting
  | accepted
  | established
  | closed
  deriving DecidableEq, Repr

/-- `State::Established | State::Accepted`. -/
def State.connected : State → Bool
  | accepted => true
  | established => true
  | _ => false

structure Socket where
  primaryId : Nat
  path : Option Name
  /-- `SO_PASSCRED` is the only option that is ever stored. -/
  passcred : Bool
  flags : Nat
  state : State
  awaiting : List Nat
  connection : Option Connection
  issuedToken : Option Nat
  deriving DecidableEq, Repr

inductive Handle where
  | socket
  | schemeRoot
  deriving DecidableEq, Repr

structure UdsStreamScheme where
  handles : Table Nat Handle
  sockets : Table Nat Socket
  nextId : Nat
  socketPaths : Table Name Nat
  socketTokens : Table Nat Nat

/-- `"uds_stream"`. -/
def schemeName : Name := [0x75, 0x64, 0x73, 0x5f, 0x73, 0x74, 0x72, 0x65, 0x61, 0x6d]

def waiting (noWait : Bool) : Errno := if noWait then .EAGAIN else .EWOULDBLOCK

inductive Reply where
  | count (length : Nat)
  | thisScheme (number : Nat)
  | bytes (data : List UInt8)
  | message (buffer : List UInt8) (length : Nat)
  | fds (moved : List Fd)
  /-- `OpenResult::WouldBlock`. -/
  | wouldBlock
  deriving DecidableEq, Repr

namespace DataPacket

def remaining (packet : DataPacket) : List UInt8 :=
  packet.payload.drop packet.readOffset

end DataPacket

namespace Connection

def dropFds (fds : List Fd) (numFd : Nat) : List Fd × Result Unit :=
  Uds.dropFds .EPROTO fds numFd

/-- The loop of `read_inner` with so much room left: what is copied, and the
packets that stay. -/
def readLoop : Nat → List DataPacket → List UInt8 × List DataPacket
  | _, [] => ([], [])
  | room, packet :: rest =>
    let copiedLen := min (DataPacket.remaining packet).length room
    if copiedLen = 0 then
      ([], packet :: rest)
    else
      let copied := (DataPacket.remaining packet).take copiedLen
      let read := { packet with
        ancillaryTaken := packet.ancillaryTaken || packet.readOffset == 0
        readOffset := packet.readOffset + copiedLen }
      if packet.payload.length ≤ read.readOffset then
        let later := readLoop (room - copiedLen) rest
        (copied ++ later.1, later.2)
      else
        -- The buffer is full.
        (copied, read :: rest)

/-- `read_inner`; the connection keeps what was not copied. -/
def readInner (connection : Connection) (length flags : Nat) : Connection × Result Reply :=
  let (copied, packets) := readLoop length connection.packets
  ({ connection with packets := packets }, if copied ≠ [] then .ok (.bytes copied)
    else if connection.isPeerShutdown then .ok (.bytes [])
    else .error (waiting (nonblock flags)))

structure Collected where
  payload : List UInt8
  ancillary : List AncillaryData
  name : Option Name
  packets : List DataPacket

def collectLoop : Nat → Option Name → List DataPacket → Collected
  | _, name, [] => ⟨[], [], name, []⟩
  | room, name, packet :: rest =>
    let copiedLen := min (DataPacket.remaining packet).length room
    if copiedLen = 0 then
      ⟨[], [], name, packet :: rest⟩
    else
      let copied := (DataPacket.remaining packet).take copiedLen
      -- The name is taken out of the packet unless there is one already.
      let kept := if name.isSome then packet.ancillaryData.name else none
      let ancillary :=
        if packet.ancillaryTaken then packet.ancillaryData
        else { packet.ancillaryData with name := kept }
      let announced := if packet.ancillaryTaken then [] else [ancillary]
      let name := if packet.ancillaryTaken then name else name <|> packet.ancillaryData.name
      let read := { packet with
        ancillaryData := ancillary
        ancillaryTaken := true
        readOffset := packet.readOffset + copiedLen }
      if packet.payload.length ≤ read.readOffset then
        let later := collectLoop (room - copiedLen) name rest
        ⟨copied ++ later.payload, announced ++ later.ancillary, later.name, later.packets⟩
      else
        ⟨copied, announced, name, read :: rest⟩

/-- The credentials of all messages, until one has no room. -/
def writeAllCredentials : MsgWriter → List AncillaryData → MsgWriter
  | writer, [] => writer
  | writer, data :: rest =>
    let (written, success) := writer.writeCredentials data.cred
    if success then writeAllCredentials written rest else written

/-- The descriptors that some messages announce together, in a machine word. -/
def countFds (ancillary : List AncillaryData) : Nat :=
  ancillary.foldl (fun numFds data => (numFds + data.numFds) % 2 ^ 64) 0

/-- `serialize_to_msgstream`.  `Vec::with_capacity` panics beyond `isize::MAX`. -/
def serializeToMsgstream (connection : Connection) (stream : List UInt8) (nameBufSize iovSize : Nat)
    (passcred : Bool) : Option (Connection × Result Reply) :=
  if 2 ^ 63 ≤ iovSize then
    none
  else
    let collected := collectLoop iovSize none connection.packets
    let named := (MsgWriter.new stream).writeName collected.name nameBufSize schemeName
    let fullLen := min collected.payload.length iovSize
    let filled := named.writePayload collected.payload fullLen iovSize
    let numFds := countFds collected.ancillary
    let (ruled, described) := filled.writeRights numFds
    let (fds, dropped) :=
      if described then (connection.fds, .ok ()) else dropFds connection.fds numFds
    let connection := { connection with packets := collected.packets, fds := fds }
    match dropped with
    | .error error => some (connection, .error error)
    | .ok () =>
      let finished := if passcred then writeAllCredentials ruled collected.ancillary else ruled
      some (connection, .ok (.message finished.buffer finished.writtenLen))

end Connection

namespace Socket

def new (id : Nat) (path : Option Name) (state : State) (passcred : Bool) (flags : Nat)
    (connection : Option Connection) : Socket :=
  ⟨id, path, passcred, flags, state, [], connection, none⟩

def requireConnectedConnection (socket : Socket) (noWait : Bool) : Result Connection :=
  match socket.state with
  | .established => okOr .EPROTO socket.connection
  | .accepted => okOr .EPROTO socket.connection
  | .connecting => .error (waiting (nonblock socket.flags || noWait))
  | .closed => .error .EPIPE
  | _ => .error .ENOTCONN

def startListening (socket : Socket) : Result Socket :=
  match socket.state with
  | .unbound => .ok { socket with state := .listening }
  | .bound => .ok { socket with state := .listening }
  | _ => .error .EINVAL

/-- The check of `connect`: may another socket connect to this one? -/
def mayConnect (listener client : Socket) : Result Unit :=
  match listener.state with
  | .unbound => if nonblock client.flags then .ok () else .error .EWOULDBLOCK
  | .bound => if nonblock client.flags then .ok () else .error .EWOULDBLOCK
  | .listening => .ok ()
  | _ => .error .ECONNREFUSED

def enqueue (listener : Socket) (client : Nat) : Socket :=
  { listener with awaiting := listener.awaiting ++ [client] }

def connectTo (client : Socket) (listener : Nat) : Socket :=
  { client with state := .connecting, connection := some (.new listener) }

/-- `establish`: the client and the new socket after it, whatever its result is. -/
def establish (client new : Socket) (peer : Nat) : Socket × Socket × Result Unit :=
  if client.state = .connecting then
    -- The state changes before the peer is compared.
    let client := { client with state := .accepted }
    match client.connection with
    | none => (client, new, .error .EAGAIN)
    | some connection =>
      if connection.peer = peer then
        ({ client with
            connection := some { connection with peer := new.primaryId, packets := [] } },
          { new with
            connection := new.connection.map fun made =>
              { made with packets := made.packets ++ connection.packets } },
          .ok ())
      else
        (client, new, .error .EAGAIN)
  else
    (client, new, .error .EINVAL)

end Socket

namespace UdsStreamScheme

variable (this : UdsStreamScheme)

def getSocket (id : Nat) : Option Socket :=
  match this.handles.get? id with
  | some .socket => this.sockets.get? id
  | _ => none

def setSocket (id : Nat) (socket : Socket) : UdsStreamScheme :=
  { this with sockets := this.sockets.insert id socket }

def addSocket (socket : Socket) : UdsStreamScheme :=
  { this with
    handles := this.handles.insert this.nextId .socket
    sockets := this.sockets.insert this.nextId socket
    nextId := this.nextId + 1 }

abbrev Done := Option (UdsStreamScheme × Result Reply)

def fail (error : Errno) : Done := some (this, .error error)

/-- `post_fevent` after the work was done: its error is reported instead. -/
def told (posted : Option Errno) (result : Result Reply) : Result Reply :=
  match posted with
  | none => result
  | some error => .error error

def posting (posted : Option Errno) (result : Result Reply) : Done :=
  some (this, told posted result)

/-- `get_connected_peer`; a socket that is its own peer is borrowed twice. -/
def getConnectedPeer (id : Nat) : Option (Result (Nat × Socket)) :=
  match this.getSocket id with
  | none => some (.error .EBADF)
  | some socket =>
    match socket.connection with
    | none => some (.error .EPROTO)
    | some connection =>
      match this.getSocket connection.peer with
      | none => some (.error .EPIPE)
      | some remote =>
        if connection.peer = id then none
        else if remote.state = .closed then some (.error .ECONNREFUSED)
        else some (.ok (connection.peer, remote))

def schemeRoot : UdsStreamScheme :=
  { this with
    handles := this.handles.insert this.nextId .schemeRoot
    nextId := this.nextId + 1 }

/-- `openat`; the flags are joined with those of `fcntl`. -/
def openat (fd : Nat) (path : Name) (flags : Nat) : Done :=
  match this.handles.get? fd with
  | none => this.fail .EBADF
  | some .socket => this.fail .EACCES
  | some .schemeRoot =>
    if path = [] ∧ creating flags then
      some (this.addSocket (.new this.nextId none .unbound false flags none),
        .ok (.thisScheme this.nextId))
    else
      this.fail .EINVAL

/-- `handle_bind`; the path is valid UTF-8 or none. -/
def handleBind (id : Nat) (path : Option Name) (token : Nat) : Done :=
  match path with
  | none => this.fail .EINVAL
  | some path =>
    if path = [] then
      this.fail .EINVAL
    else if this.socketPaths.contains path then
      this.fail .EADDRINUSE
    else
      match this.getSocket id with
      | none => this.fail .EBADF
      | some socket =>
        if socket.state = .unbound then
          -- A bound socket listens at once.
          some ({ this.setSocket id
              { socket with path := some path, state := .listening, issuedToken := some token }
              with
            socketPaths := this.socketPaths.insert path id
            socketTokens := this.socketTokens.insert token id }, .ok (.count 0))
        else
          this.fail .EINVAL

def startConnecting (id listenerId : Nat) (client listener : Socket) (posted : Option Errno) :
    Done :=
  match listener.mayConnect client with
  | .error error => this.fail error
  | .ok () =>
    ((this.setSocket listenerId (listener.enqueue client.primaryId)).setSocket id
      (client.connectTo listener.primaryId)).posting posted
        (.error (waiting (nonblock client.flags)))

def handleConnect (id : Nat) (tokenBuf : List UInt8) (posted : Option Errno) : Done :=
  match readNum 8 tokenBuf with
  | .error error => this.fail error
  | .ok token =>
    match this.socketTokens.get? token with
    | none => this.fail .ECONNREFUSED
    | some listenerId =>
      match this.getSocket id, this.sockets.get? listenerId with
      | some client, some listener =>
        if listenerId = id then
          none
        else
          match client.state with
          | .connecting =>
            if client.connection.any (fun connection =>
                connection.peer == listener.primaryId) then
              this.fail (waiting (nonblock client.flags))
            else
              this.startConnecting id listenerId client listener posted
          | .established => this.fail .EISCONN
          | .accepted =>
            some (this.setSocket id { client with state := .established }, .ok (.count 0))
          | _ => this.startConnecting id listenerId client listener posted
      | _, _ => this.fail .EBADF

inductive SockOpt where
  | passcred
  | sndbuf
  | other
  deriving DecidableEq, Repr

def handleSetsockopt (id : Nat) (option : SockOpt) (value : List UInt8) : Done :=
  match this.getSocket id with
  | none => this.fail .EBADF
  | some socket =>
    match option with
    | .passcred =>
      match readNum 4 value with
      | .ok number =>
        some (this.setSocket id { socket with passcred := number != 0 }, .ok (.count value.length))
      | .error error => this.fail error
    | .sndbuf => some (this, .ok (.count 0))
    | .other => this.fail .ENOPROTOOPT

def push (id : Nat) (socket : Socket) (connection : Connection) (packet : DataPacket) :
    UdsStreamScheme :=
  this.setSocket id { socket with
    connection := some { connection with packets := connection.packets ++ [packet] } }

/-- `handle_sendmsg`; `creds` is what `get_uid_gid_from_pid` finds. -/
def handleSendmsg (id : Nat) (noWait : Bool) (stream : List UInt8) (creds : Result Credential)
    (posted : Option Errno) : Done :=
  if stream = [] then
    this.fail .EINVAL
  else
    match this.getSocket id with
    | none => this.fail .EBADF
    | some sender =>
      match this.getConnectedPeer id with
      | none => none
      | some (.error error) => this.fail error
      | some (.ok (remoteId, remote)) =>
        let read := do
          let connection ← remote.requireConnectedConnection noWait
          let cred ← creds
          let packet ← DataPacket.fromStream stream sender.path cred
          return (connection, packet)
        match read with
        | .error error => this.fail error
        | .ok (connection, packet) =>
          if packet.payload = [] then
            some (this, .ok (.count 0))
          else
            (this.push remoteId remote connection packet).posting posted
              (.ok (.count packet.payload.length))

def writeEof (buffer : List UInt8) : Result Reply :=
  if buffer.length < 2 * wordSize then .error .EINVAL
  else .ok (.message (List.replicate (2 * wordSize) 0 ++ buffer.drop (2 * wordSize)) (2 * wordSize))

def recvmsgInner (id : Nat) (socket : Socket) (connection : Connection) (stream : List UInt8) :
    Done :=
  match readMsghdrInfo stream with
  | .error error => this.fail error
  | .ok (nameLen, iovSize, cleared) =>
    match connection.serializeToMsgstream cleared nameLen iovSize socket.passcred with
    | none => none
    | some (connection, result) =>
      some (this.setSocket id { socket with connection := some connection }, result)

def handleRecvmsg (id : Nat) (noWait : Bool) (stream : List UInt8) : Done :=
  match this.getSocket id with
  | none => this.fail .EBADF
  | some socket =>
    if socket.state.connected then
      match socket.connection with
      | none => this.fail .EPROTO
      | some connection =>
        if connection.packets = [] then
          if connection.isPeerShutdown then some (this, writeEof stream)
          else this.fail (waiting (nonblock socket.flags || noWait))
        else
          this.recvmsgInner id socket connection stream
    else
      match socket.state with
      | .closed => some (this, writeEof stream)
      | .listening => this.fail .EOPNOTSUPP
      | _ => this.fail .ENOTCONN

def handleUnbind (id : Nat) : Done :=
  match this.getSocket id with
  | none => this.fail .EBADF
  | some socket =>
    if socket.state = .bound then
      some ({ this.setSocket id { socket with state := .unbound, path := none } with
        socketPaths := this.socketPaths.eraseOf socket.path }, .ok (.count 0))
    else
      this.fail .EINVAL

/-- `Socket::accept`, on a socket that listens. -/
def newSocket (listener : Socket) (clientId : Nat) : Socket :=
  .new this.nextId listener.path .established listener.passcred listener.flags
    (some (.new clientId))

/-- `accept_connection`: the number of the new socket, or none for a client that
is gone. -/
def acceptConnection (listenerId clientId : Nat) (listener : Socket) (posted : Option Errno) :
    Option (UdsStreamScheme × Result (Option Nat)) :=
  match this.getSocket clientId with
  | none => some (this, .ok none)
  | some client =>
    if clientId = listenerId then
      none
    else
      match client.establish (this.newSocket listener clientId) listener.primaryId with
      | (client, _, .error error) => some (this.setSocket clientId client, .error error)
      | (client, new, .ok ()) =>
        let after := (this.setSocket clientId client).addSocket new
        match posted with
        | none => some (after, .ok (some this.nextId))
        | some error => some (after, .error error)

/-- The loops of `handle_listen` and `handle_accept`, on the clients that wait.
`posted` answers the events that are posted to the clients. -/
def acceptLoop (posted : Nat → Option Errno) (listenerId : Nat) (listener : Socket) :
    List Nat → UdsStreamScheme → Done
  | [], this =>
    (this.setSocket listenerId { listener with awaiting := [] }).fail
      (waiting (nonblock listener.flags))
  | clientId :: rest, this =>
    let this := this.setSocket listenerId { listener with awaiting := rest }
    match this.acceptConnection listenerId clientId listener (posted clientId) with
    | none => none
    | some (after, .ok (some number)) => some (after, .ok (.thisScheme number))
    | some (after, .ok none) => acceptLoop posted listenerId listener rest after
    | some (after, .error .EAGAIN) => acceptLoop posted listenerId listener rest after
    | some (after, .error error) => after.fail error

def handleStartListening (id : Nat) (socket : Socket) : UdsStreamScheme × Result Socket :=
  match socket.startListening with
  | .error error => (this, .error error)
  | .ok listener =>
    let after := this.setSocket id listener
    match listener.path with
    | none => (after, .ok listener)
    | some path =>
      match this.socketPaths.get? path with
      | some existing =>
        if existing = id then
          ({ after with socketPaths := this.socketPaths.insert path id }, .ok listener)
        else
          (after, .error .EADDRINUSE)
      | none => ({ after with socketPaths := this.socketPaths.insert path id }, .ok listener)

def handleListen (id : Nat) (posted : Nat → Option Errno) : Done :=
  match this.getSocket id with
  | none => this.fail .EBADF
  | some socket =>
    if socket.state = .listening then
      acceptLoop posted id socket socket.awaiting this
    else
      match this.handleStartListening id socket with
      | (after, .error error) => after.fail error
      | (after, .ok listener) => acceptLoop posted id listener listener.awaiting after

/-- `handle_connect_socketpair`; the new socket is dropped when posting fails, but
stays in the queue. -/
def handleConnectSocketpair (id : Nat) (posted : Option Errno) : Done :=
  match this.getSocket id with
  | none => this.fail .EBADF
  | some socket =>
    if socket.state = .closed then
      this.fail .EPIPE
    else
      let after := this.setSocket id (socket.enqueue this.nextId)
      match posted with
      | some error => after.fail error
      | none =>
        let new := (Socket.new this.nextId none .unbound false socket.flags none).connectTo
          socket.primaryId
        some (after.addSocket new, .ok (.thisScheme this.nextId))

def unconnected (socket : Socket) : Errno :=
  match socket.state with
  | .closed => .EPIPE
  | .listening => .EOPNOTSUPP
  | _ => .ENOTCONN

def setConnection (id : Nat) (socket : Socket) (connection : Connection) : UdsStreamScheme :=
  this.setSocket id { socket with connection := some connection }

def handleRecvfd (id : Nat) : Done :=
  match this.getSocket id with
  | none => this.fail .EBADF
  | some socket =>
    if socket.state.connected then
      match socket.connection with
      | none => this.fail .EPROTO
      | some connection =>
        match connection.fds with
        | [] => this.fail .EWOULDBLOCK
        | fd :: rest =>
          some (this.setConnection id socket { connection with fds := rest }, .ok (.fds [fd]))
    else
      this.fail (unconnected socket)

/-- `write` and `write_inner`; `cred` is the caller's. -/
def write (id : Nat) (buf : List UInt8) (cred : Credential) (posted : Option Errno) : Done :=
  match this.getConnectedPeer id with
  | none => none
  | some (.error error) => this.fail error
  | some (.ok (receiverId, receiver)) =>
    let packet := DataPacket.new buf (.new cred receiver.path)
    if receiver.state = .listening then
      -- Not accepted yet: the data is parked with the client.
      match this.getSocket id with
      | none => this.fail .EBADF
      | some sender =>
        match sender.connection with
        | none => this.fail .EPROTO
        | some connection =>
          let after := if buf = [] then this else this.push id sender connection packet
          after.posting posted (.ok (.count buf.length))
    else
      match receiver.requireConnectedConnection false with
      | .error error => this.fail error
      | .ok connection =>
        let after := if buf = [] then this else this.push receiverId receiver connection packet
        after.posting posted (.ok (.count buf.length))

def read (id length flags : Nat) : Done :=
  match this.getSocket id with
  | none => this.fail .EBADF
  | some socket =>
    match socket.requireConnectedConnection false with
    | .ok connection =>
      let (connection, result) := connection.readInner length flags
      some (this.setConnection id socket connection, result)
    | .error error =>
      match socket.state with
      | .closed => some (this, .ok (.bytes []))
      | .listening => this.fail .EOPNOTSUPP
      | _ => this.fail error

/-- `on_sendfd` and `sendfd_inner`; `obtained` is what `obtain_fd` fetched. -/
def sendfd (id : Nat) (obtained : Result (List Fd)) (posted : Option Errno) : Done :=
  match this.getConnectedPeer id with
  | none => none
  | some (.error error) => this.fail error
  | some (.ok (receiverId, receiver)) =>
    match obtained with
    | .error error => this.fail error
    | .ok newFds =>
      match receiver.requireConnectedConnection false with
      | .error error => this.fail error
      | .ok connection =>
        (this.setConnection receiverId receiver
          { connection with fds := connection.fds ++ newFds }).posting posted
            (.ok (.count newFds.length))

/-- `recvfd_inner`; `moved` is whether `move_fd` succeeds. -/
def recvfd (id numFds : Nat) (moved : Bool) : Done :=
  match this.getSocket id with
  | none => this.fail .EBADF
  | some socket =>
    if numFds = 0 then
      some (this, .ok (.fds []))
    else if socket.state.connected then
      match socket.connection with
      | none => this.fail .EPROTO
      | some connection =>
        if connection.fds.length < numFds then
          if connection.isPeerShutdown then some (this, .ok (.fds []))
          else if nonblock socket.flags then this.fail .EAGAIN
          else some (this, .ok .wouldBlock)
        else
          some (this.setConnection id socket { connection with fds := connection.fds.drop numFds },
            if moved then .ok (.fds (connection.fds.take numFds)) else .error .EPROTO)
    else
      this.fail (unconnected socket)

def setFlags (id arg : Nat) : Done :=
  match this.getSocket id with
  | none => this.fail .EBADF
  | some socket => some (this.setSocket id { socket with flags := arg }, .ok (.count 0))

/-- The clients that wait for a listener learn that it is gone. -/
def closeWaiting : List Nat → UdsStreamScheme → UdsStreamScheme
  | [], this => this
  | clientId :: rest, this =>
    match this.getSocket clientId with
    | some client => closeWaiting rest (this.setSocket clientId { client with state := .closed })
    | none => closeWaiting rest this

def forget (socket : Socket) : UdsStreamScheme :=
  { this with
    socketPaths := this.socketPaths.eraseOf socket.path
    socketTokens := this.socketTokens.eraseOf socket.issuedToken }

def handleListeningClosure (socket : Socket) : UdsStreamScheme :=
  closeWaiting socket.awaiting (this.forget socket)

def finishClosure (id : Nat) (socket : Socket) : UdsStreamScheme :=
  (this.forget socket).setSocket id { socket with path := none, state := .closed }

/-- `handle_other_closure`.  It ends early when the peer is gone. -/
def handleOtherClosure (id : Nat) (socket : Socket) : UdsStreamScheme :=
  if socket.state.connected then
    match socket.connection with
    | none => this
    | some connection =>
      match this.getSocket connection.peer with
      | none => this
      | some remote =>
        match remote.connection with
        | none => this
        | some other =>
          (this.setConnection connection.peer remote
            { other with isPeerShutdown := true }).finishClosure id socket
  else
    this.finishClosure id socket

/-- The sockets that are borrowed while the closed one is. -/
def closureBorrows (socket : Socket) : List Nat :=
  (if socket.state = .listening then socket.awaiting
    else if socket.state.connected then (socket.connection.map Connection.peer).toList
    else []).filter fun other => (this.getSocket other).isSome

def onClose (id : Nat) : Option UdsStreamScheme :=
  let after := { this with handles := this.handles.erase id }
  match this.getSocket id with
  | none => some after
  | some socket =>
    if id ∈ after.closureBorrows socket then none
    else if socket.state = .listening then some (after.handleListeningClosure socket)
    else some (after.handleOtherClosure id socket)

end UdsStreamScheme

inductive Event where
  | schemeRoot
  | openat (fd : Nat) (path : Name) (flags : Nat)
  | bind (id : Nat) (path : Option Name) (token : Nat)
  | connect (id : Nat) (tokenBuf : List UInt8) (posted : Option Errno)
  | unbind (id : Nat)
  | setsockopt (id : Nat) (option : UdsStreamScheme.SockOpt) (value : List UInt8)
  | sendmsg (id : Nat) (noWait : Bool) (stream : List UInt8) (creds : Result Credential)
      (posted : Option Errno)
  | recvmsg (id : Nat) (noWait : Bool) (stream : List UInt8)
  | dupListen (id : Nat) (posted : Nat → Option Errno)
  | dupConnect (id : Nat) (posted : Option Errno)
  | dupRecvfd (id : Nat)
  | write (id : Nat) (buf : List UInt8) (cred : Credential) (posted : Option Errno)
  | read (id length flags : Nat)
  | sendfd (id : Nat) (obtained : Result (List Fd)) (posted : Option Errno)
  | recvfd (id numFds : Nat) (moved : Bool)
  | setFlags (id arg : Nat)
  | close (id : Nat)

def step (this : UdsStreamScheme) : Event → Option (UdsStreamScheme × Option (Result Reply))
  | .schemeRoot => some (this.schemeRoot, some (.ok (.thisScheme this.nextId)))
  | .openat fd path flags => replied (this.openat fd path flags)
  | .bind id path token => replied (this.handleBind id path token)
  | .connect id tokenBuf posted => replied (this.handleConnect id tokenBuf posted)
  | .unbind id => replied (this.handleUnbind id)
  | .setsockopt id option value => replied (this.handleSetsockopt id option value)
  | .sendmsg id noWait stream creds posted =>
    replied (this.handleSendmsg id noWait stream creds posted)
  | .recvmsg id noWait stream => replied (this.handleRecvmsg id noWait stream)
  | .dupListen id posted => replied (this.handleListen id posted)
  | .dupConnect id posted => replied (this.handleConnectSocketpair id posted)
  | .dupRecvfd id => replied (this.handleRecvfd id)
  | .write id buf cred posted => replied (this.write id buf cred posted)
  | .read id length flags => replied (this.read id length flags)
  | .sendfd id obtained posted => replied (this.sendfd id obtained posted)
  | .recvfd id numFds moved => replied (this.recvfd id numFds moved)
  | .setFlags id arg => replied (this.setFlags id arg)
  | .close id => (this.onClose id).map (·, none)
where
  replied (done : UdsStreamScheme.Done) : Option (UdsStreamScheme × Option (Result Reply)) :=
    done.map fun (after, result) => (after, some result)

def stream : System UdsStreamScheme Event (Result Reply) where
  start := ⟨.empty, .empty, 0, .empty, .empty⟩
  step := step

end EosBase.Uds.Stream
