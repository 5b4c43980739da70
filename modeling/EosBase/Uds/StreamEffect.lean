import EosBase.Uds.Stream

/-!
# What a request does to stream sockets

`step_effect` takes every handler apart once.  What is proved about runs of the
stream scheme is proved by cases on `Effect`.
-/

namespace EosBase.Uds.Stream

open Redox UdsStreamScheme Connection Table

variable {id other : Nat}

namespace UdsStreamScheme

variable {this : UdsStreamScheme} {socket changed : Socket}

theorem handle_of_getSocket (found : this.getSocket id = some socket) :
    this.handles.get? id = some .socket := by
  unfold getSocket at found
  split at found
  next held => exact held
  · cases found

theorem get?_of_getSocket (found : this.getSocket id = some socket) :
    this.sockets.get? id = some socket := by
  unfold getSocket at found
  split at found
  · exact found
  · cases found

theorem getSocket_of_held (held : this.handles.get? id = some .socket)
    (found : this.sockets.get? id = some socket) : this.getSocket id = some socket := by
  unfold getSocket
  rw [held]
  exact found

@[simp]
theorem nextId_setSocket : (this.setSocket id changed).nextId = this.nextId := rfl

@[simp]
theorem handles_setSocket : (this.setSocket id changed).handles = this.handles := rfl

theorem getSocket_setSocket_ne (different : other ≠ id) :
    (this.setSocket id changed).getSocket other = this.getSocket other := by
  unfold getSocket setSocket
  rw [get?_insert_of_ne _ different]

section

variable (found : this.getSocket id = some socket)

include found

theorem getSocket_other (different : other ≠ id) :
    (this.setSocket other changed).getSocket id = some socket :=
  (getSocket_setSocket_ne (Ne.symm different)).trans found

theorem getSocket_setSocket :
    (this.setSocket id changed).getSocket other =
      if other = id then some changed else this.getSocket other := by
  by_cases same : other = id
  · subst same
    rw [if_pos rfl]
    have held := handle_of_getSocket found
    exact getSocket_of_held held (get?_insert_self _ _ _)
  · rw [if_neg same, getSocket_setSocket_ne same]

theorem getSocket_setSocket_self :
    (this.setSocket id changed).getSocket id = some changed := by
  rw [getSocket_setSocket found, if_pos rfl]

end

theorem getSocket_setSocket_closed (closed : this.handles.get? id = none) :
    (this.setSocket id changed).getSocket other = this.getSocket other := by
  by_cases same : other = id
  · subst same
    unfold getSocket
    rw [handles_setSocket, closed]
  · exact getSocket_setSocket_ne same

theorem getSocket_addSocket : (this.addSocket changed).getSocket other =
      if other = this.nextId then some changed else this.getSocket other := by
  by_cases same : other = this.nextId
  · subst same
    rw [if_pos rfl]
    exact getSocket_of_held (get?_insert_self _ _ _) (get?_insert_self _ _ _)
  · rw [if_neg same]
    unfold getSocket addSocket
    rw [get?_insert_of_ne _ same, get?_insert_of_ne _ same]

theorem getSocket_join {new} (found : this.getSocket id = some socket) :
    ((this.setSocket id changed).addSocket new).getSocket other =
      if other = this.nextId then some new
      else if other = id then some changed else this.getSocket other := by
  rw [getSocket_addSocket, nextId_setSocket, getSocket_setSocket found]

end UdsStreamScheme

inductive Reply.Empty : Reply → Prop where
  | count : Empty (.count 0)
  | bytes : Empty (.bytes [])
  | fds : Empty (.fds [])
  | wouldBlock : Empty .wouldBlock

/-- The requests that put a packet into a queue, and what they reply. -/
inductive Sends (id : Nat) : DataPacket → Event → Option (Result Reply) → Prop where
  | write {buf cred name posted} : buf ≠ [] →
      Sends id (.new buf (.new cred name)) (.write id buf cred posted)
        (some (told posted (.ok (.count buf.length))))
  | sendmsg {packet noWait stream creds cred name posted} :
      DataPacket.fromStream stream name cred = .ok packet → packet.payload ≠ [] →
      Sends id packet (.sendmsg id noWait stream creds posted)
        (some (told posted (.ok (.count packet.payload.length))))

/-- The requests that take descriptors out of a queue, and what they reply. -/
inductive Obtains (id : Nat) : List Fd → Event → Option (Result Reply) → Prop where
  | dup {fd} : Obtains id [fd] (.dupRecvfd id) (some (.ok (.fds [fd])))
  | recvfd {taken moved} : Obtains id taken (.recvfd id taken.length moved)
      (some (if moved then .ok (.fds taken) else .error .EPROTO))

def Socket.acceptedBy (client : Socket) (connection : Connection) (new : Nat) : Socket :=
  { client with
    state := .accepted
    connection := some { connection with peer := new, packets := [] } }

/-- The socket that is made for a client, with what the client has written. -/
def UdsStreamScheme.acceptedSocket (this : UdsStreamScheme) (listener : Socket) (clientId : Nat)
    (packets : List DataPacket) : Socket :=
  { this.newSocket listener clientId with
    connection := some { new clientId with packets := packets } }

inductive Accept (listenerId : Nat) (listener : Socket) (clientId : Nat)
    (this : UdsStreamScheme) : UdsStreamScheme → Prop where
  | gone : this.getSocket clientId = none → Accept listenerId listener clientId this this
  | busy {client} : this.getSocket clientId = some client → client.state ≠ .connecting →
      Accept listenerId listener clientId this (this.setSocket clientId client)
  | elsewhere {client} : this.getSocket clientId = some client → clientId ≠ listenerId →
      client.state = .connecting →
      client.connection.map peer ≠ some listener.primaryId →
      Accept listenerId listener clientId this
        (this.setSocket clientId { client with state := .accepted })
  | joined {client connection} : this.getSocket clientId = some client →
      clientId ≠ listenerId → client.state = .connecting →
      client.connection = some connection → connection.peer = listener.primaryId →
      Accept listenerId listener clientId this
        ((this.setSocket clientId (client.acceptedBy connection this.nextId)).addSocket
          (this.acceptedSocket listener clientId connection.packets))

/-- Clients are taken from the queue of a listener, one after the other. -/
inductive Accepting (id : Nat) (listener : Socket) :
    List Nat → UdsStreamScheme → UdsStreamScheme → Prop where
  | empty {this} :
      Accepting id listener [] this (this.setSocket id { listener with awaiting := [] })
  | stop {client rest this after} :
      Accept id listener client (this.setSocket id { listener with awaiting := rest }) after →
      Accepting id listener (client :: rest) this after
  | again {client rest this between after} :
      Accept id listener client (this.setSocket id { listener with awaiting := rest }) between →
      Accepting id listener rest between after →
      Accepting id listener (client :: rest) this after

inductive Starts (id : Nat) (socket : Socket) (this : UdsStreamScheme) :
    UdsStreamScheme → Prop where
  | unnamed : Starts id socket this (this.setSocket id { socket with state := .listening })
  | named {path} : socket.path = some path →
      this.socketPaths.get? path = none ∨ this.socketPaths.get? path = some id →
      Starts id socket this { this.setSocket id { socket with state := .listening } with
        socketPaths := this.socketPaths.insert path id }

def UdsStreamScheme.without (this : UdsStreamScheme) (id : Nat) : UdsStreamScheme :=
  { this with handles := this.handles.erase id }

variable {this : UdsStreamScheme}

theorem UdsStreamScheme.getSocket_without :
    (this.without id).getSocket other = if other = id then none else this.getSocket other := by
  unfold getSocket without
  rw [get?_erase]
  by_cases same : other = id
  · rw [if_pos same, if_pos same]
  · rw [if_neg same, if_neg same]

/-- A socket that is closed is not found again, as a peer or in a queue. -/
theorem UdsStreamScheme.not_mem_closureBorrows {socket} :
    id ∉ (this.without id).closureBorrows socket := by
  intro held
  have found := (List.mem_filter.mp held).2
  rw [getSocket_without, if_pos rfl] at found
  cases found

theorem UdsStreamScheme.getSocket_closeWaiting {queue} :
    (closeWaiting queue this).getSocket id = (this.getSocket id).map fun socket =>
      if id ∈ queue then { socket with state := .closed } else socket := by
  induction queue generalizing this with
  | nil => simp [closeWaiting]
  | cons client rest ih =>
    unfold closeWaiting
    split
    next waiting found =>
      rw [ih, getSocket_setSocket found]
      by_cases same : id = client
      · simp [same, found]
      · simp [same]
    next missing =>
      rw [ih]
      by_cases same : id = client
      · simp [same, missing]
      · simp [same]

inductive Closes (this : UdsStreamScheme) (id : Nat) : UdsStreamScheme → Prop where
  | absent : this.getSocket id = none → Closes this id (this.without id)
  | listener {socket} : this.getSocket id = some socket → socket.state = .listening →
      Closes this id (closeWaiting socket.awaiting ((this.without id).forget socket))
  /-- The peer is gone, and the names of the socket stay. -/
  | alone {socket} : this.getSocket id = some socket → socket.state.connected = true →
      (∀ connection, socket.connection = some connection →
        ∀ remote, (this.without id).getSocket connection.peer = some remote →
          remote.connection = none) →
      Closes this id (this.without id)
  | parted {socket connection remote other} : this.getSocket id = some socket →
      socket.state.connected = true → socket.connection = some connection →
      (this.without id).getSocket connection.peer = some remote →
      remote.connection = some other →
      Closes this id (((this.without id).setConnection connection.peer remote
        { other with isPeerShutdown := true }).finishClosure id socket)
  | unconnected {socket} : this.getSocket id = some socket → socket.state ≠ .listening →
      socket.state.connected = false →
      Closes this id ((this.without id).finishClosure id socket)

/-- Everything that a request can do, its reply included. -/
inductive Effect (before : UdsStreamScheme) :
    Event → Option (Result Reply) → UdsStreamScheme → Prop where
  | refused {event error} : Effect before event (some (.error error)) before
  | nothing {event reply} : reply.Empty → (∀ id path token, event ≠ .bind id path token) →
      Effect before event (some (.ok reply)) before
  | eof {id noWait stream} :
      Effect before (.recvmsg id noWait stream) (some (writeEof stream)) before
  | root : Effect before .schemeRoot (some (.ok (.thisScheme before.nextId))) before.schemeRoot
  | opened {fd path flags} :
      Effect before (.openat fd path flags) (some (.ok (.thisScheme before.nextId)))
        (before.addSocket (.new before.nextId none .unbound false flags none))
  | bound {id socket path token} : before.getSocket id = some socket →
      socket.state = .unbound → path ≠ [] → before.socketPaths.get? path = none →
      Effect before (.bind id (some path) token) (some (.ok (.count 0)))
        { before.setSocket id
            { socket with path := some path, state := .listening, issuedToken := some token } with
          socketPaths := before.socketPaths.insert path id
          socketTokens := before.socketTokens.insert token id }
  | unbound {id socket} : before.getSocket id = some socket → socket.state = .bound →
      Effect before (.unbind id) (some (.ok (.count 0)))
        { before.setSocket id { socket with state := .unbound, path := none } with
          socketPaths := before.socketPaths.eraseOf socket.path }
  | option {id socket value passcred} : before.getSocket id = some socket →
      Effect before (.setsockopt id .passcred value) (some (.ok (.count value.length)))
        (before.setSocket id { socket with passcred := passcred })
  | flags {id socket arg} : before.getSocket id = some socket →
      Effect before (.setFlags id arg) (some (.ok (.count 0)))
        (before.setSocket id { socket with flags := arg })
  | connecting {id tokenBuf posted listenerId client listener error} :
      before.getSocket id = some client → before.sockets.get? listenerId = some listener →
      listenerId ≠ id → client.state.connected = false →
      (∃ token, readNum 8 tokenBuf = .ok token ∧ before.socketTokens.get? token = some listenerId) →
      (client.state = .connecting → client.connection.map peer ≠ some listener.primaryId) →
      Effect before (.connect id tokenBuf posted) (some (.error error))
        ((before.setSocket listenerId (listener.enqueue client.primaryId)).setSocket id
          (client.connectTo listener.primaryId))
  | finished {id tokenBuf posted client} : before.getSocket id = some client →
      client.state = .accepted →
      Effect before (.connect id tokenBuf posted) (some (.ok (.count 0)))
        (before.setSocket id { client with state := .established })
  | sent {id event output sender own receiver connection packet} :
      before.getSocket id = some sender → sender.connection = some own → own.peer ≠ id →
      before.getSocket own.peer = some receiver → receiver.state.connected = true →
      receiver.connection = some connection → Sends id packet event output →
      Effect before event output (before.push own.peer receiver connection packet)
  | parked {id buf cred posted sender connection receiver} :
      before.getSocket id = some sender → sender.connection = some connection →
      connection.peer ≠ id → before.getSocket connection.peer = some receiver →
      receiver.state = .listening → buf ≠ [] →
      Effect before (.write id buf cred posted) (some (told posted (.ok (.count buf.length))))
        (before.push id sender connection (.new buf (.new cred receiver.path)))
  | passed {id newFds posted sender own receiver connection} :
      before.getSocket id = some sender → sender.connection = some own → own.peer ≠ id →
      before.getSocket own.peer = some receiver → receiver.state.connected = true →
      receiver.connection = some connection →
      Effect before (.sendfd id (.ok newFds) posted)
        (some (told posted (.ok (.count newFds.length))))
        (before.setConnection own.peer receiver { connection with fds := connection.fds ++ newFds })
  | read {id length flags socket connection} : before.getSocket id = some socket →
      socket.state.connected = true → socket.connection = some connection →
      Effect before (.read id length flags) (some (connection.readInner length flags).2)
        (before.setConnection id socket (connection.readInner length flags).1)
  | received {id noWait stream socket connection nameLen iovSize cleared changed result} :
      before.getSocket id = some socket → socket.state.connected = true →
      socket.connection = some connection → connection.packets ≠ [] →
      readMsghdrInfo stream = .ok (nameLen, iovSize, cleared) →
      connection.serializeToMsgstream cleared nameLen iovSize socket.passcred =
        some (changed, result) →
      Effect before (.recvmsg id noWait stream) (some result)
        (before.setConnection id socket changed)
  | obtained {id event output socket connection taken rest} :
      before.getSocket id = some socket → socket.state.connected = true →
      socket.connection = some connection → connection.fds = taken ++ rest →
      Obtains id taken event output →
      Effect before event output (before.setConnection id socket { connection with fds := rest })
  | startRefused {id posted socket after error} : before.getSocket id = some socket →
      socket.state = .unbound ∨ socket.state = .bound → Starts id socket before after →
      Effect before (.dupListen id posted) (some (.error error)) after
  | started {id posted output socket between after} : before.getSocket id = some socket →
      socket.state = .unbound ∨ socket.state = .bound → Starts id socket before between →
      Accepting id { socket with state := .listening } socket.awaiting between after →
      Effect before (.dupListen id posted) output after
  | listened {id posted output socket after} : before.getSocket id = some socket →
      socket.state = .listening → Accepting id socket socket.awaiting before after →
      Effect before (.dupListen id posted) output after
  | pairRefused {id posted socket error} : before.getSocket id = some socket →
      Effect before (.dupConnect id posted) (some (.error error))
        (before.setSocket id (socket.enqueue before.nextId))
  | paired {id posted socket} : before.getSocket id = some socket →
      Effect before (.dupConnect id posted) (some (.ok (.thisScheme before.nextId)))
        ((before.setSocket id (socket.enqueue before.nextId)).addSocket
          ((Socket.new before.nextId none .unbound false socket.flags none).connectTo
            socket.primaryId))
  | closed {id after} : Closes before id after → Effect before (.close id) none after

def Effects (before : UdsStreamScheme) (event : Event) : Done → Prop :=
  Ends fun done => Effect before event (some done.2) done.1

variable {posted : Option Errno} {listener : Socket} {noWait : Bool} {event : Event}

namespace UdsStreamScheme

variable {before after : UdsStreamScheme} {error : Errno}

theorem openat_effect {fd flags path} :
    Effects before (.openat fd path flags) (before.openat fd path flags) := by
  unfold openat
  split
  · exact .refused
  · exact .refused
  · split
    · exact .opened
    · exact .refused

theorem handleBind_effect {path token} :
    Effects before (.bind id path token) (before.handleBind id path token) := by
  unfold handleBind
  split
  · exact .refused
  next path =>
  split
  · exact .refused
  next nonempty =>
  split
  · exact .refused
  next free =>
  split
  · exact .refused
  next socket found =>
  split
  next unbound =>
    exact .bound found unbound nonempty (by simpa [contains] using free)
  · exact .refused

theorem handleUnbind_effect : Effects before (.unbind id) (before.handleUnbind id) := by
  unfold handleUnbind
  split
  · exact .refused
  next socket found =>
  split
  next bound =>
    exact .unbound found bound
  · exact .refused

theorem startConnecting_effect {tokenBuf listenerId client}
    (found : before.getSocket id = some client)
    (registered : before.sockets.get? listenerId = some listener) (different : listenerId ≠ id)
    (unconnected : client.state.connected = false)
    (named : ∃ token, readNum 8 tokenBuf = .ok token ∧
      before.socketTokens.get? token = some listenerId) (elsewhere : client.state = .connecting →
      client.connection.map peer ≠ some listener.primaryId) :
    Effects before (.connect id tokenBuf posted)
      (before.startConnecting id listenerId client listener posted) := by
  unfold startConnecting
  split
  · exact .refused
  · cases posted with
    | none | some => exact .connecting found registered different unconnected named elsewhere

theorem handleConnect_effect {tokenBuf} :
    Effects before (.connect id tokenBuf posted) (before.handleConnect id tokenBuf posted) := by
  unfold handleConnect
  split
  · exact .refused
  next token read =>
  split
  · exact .refused
  next listenerId issued =>
  split
  next client listener found registered =>
    split
    · trivial
    next different =>
    cases state : client.state <;> dsimp only
    case connecting =>
      split
      · exact .refused
      next other =>
      refine startConnecting_effect found registered different
        (by simp [state, State.connected]) ⟨token, read, issued⟩ (fun _ => ?_)
      cases held : client.connection with
      | none => simp
      | some connection => simpa [held] using other
    case established =>
      exact .refused
    case accepted =>
      exact .finished found state
    all_goals
      exact startConnecting_effect found registered different
        (by simp [state, State.connected]) ⟨token, read, issued⟩ (by simp [state])
  · exact .refused

theorem handleSetsockopt_effect {option value} :
    Effects before (.setsockopt id option value) (before.handleSetsockopt id option value) := by
  unfold handleSetsockopt
  split
  · exact .refused
  next socket found =>
  cases option with
  | passcred =>
    dsimp only
    split
    · exact .option found
    · exact .refused
  | sndbuf =>
    exact .nothing .count nofun
  | other =>
    exact .refused

theorem setFlags_effect {arg} : Effects before (.setFlags id arg) (before.setFlags id arg) := by
  unfold setFlags
  split
  · exact .refused
  next socket found =>
  exact .flags found

variable {stream : List UInt8} {connection : Connection}

theorem of_serializeToMsgstream {result changed nameBufSize iovSize passcred}
    (done : connection.serializeToMsgstream stream nameBufSize iovSize passcred =
      some (changed, result)) :
    changed = { connection with packets := changed.packets, fds := changed.fds } := by
  unfold serializeToMsgstream at done
  split at done
  · cases done
  · dsimp only at done
    split at done <;> cases done <;> rfl

theorem of_getConnectedPeer {receiverId receiver}
    (done : before.getConnectedPeer id = some (.ok (receiverId, receiver))) :
    ∃ sender own, before.getSocket id = some sender ∧ sender.connection = some own ∧
      own.peer = receiverId ∧ own.peer ≠ id ∧ before.getSocket own.peer = some receiver := by
  unfold getConnectedPeer at done
  split at done
  · cases done
  next sender found =>
  split at done
  · cases done
  next own connected =>
  split at done
  · cases done
  next remote present =>
  split at done
  · cases done
  next different =>
  split at done
  · cases done
  · cases done
    exact ⟨sender, own, found, connected, rfl, different, present⟩

variable {socket : Socket}

theorem of_requireConnectedConnection
    (done : socket.requireConnectedConnection noWait = .ok connection) :
    socket.state.connected = true ∧ socket.connection = some connection := by
  unfold Socket.requireConnectedConnection at done
  cases state : socket.state <;> simp only [state] at done
  case accepted => exact ⟨rfl, okOr_ok done⟩
  case established => exact ⟨rfl, okOr_ok done⟩
  all_goals cases done

theorem handleSendmsg_effect {creds} : Effects before (.sendmsg id noWait stream creds posted)
      (before.handleSendmsg id noWait stream creds posted) := by
  unfold handleSendmsg
  split
  · exact .refused
  split
  · exact .refused
  split
  · trivial
  · exact .refused
  next receiverId receiver reached =>
  obtain ⟨origin, own, present, linked, rfl, different, facing⟩ := of_getConnectedPeer reached
  dsimp only
  split
  · exact .refused
  next connection packet prepared =>
  obtain ⟨_, required, prepared⟩ := ok_of_bind prepared
  obtain ⟨cred, _, prepared⟩ := ok_of_bind prepared
  obtain ⟨_, parsed, same⟩ := ok_of_bind prepared
  cases same
  obtain ⟨connected, held⟩ := of_requireConnectedConnection required
  split
  · exact .nothing .count nofun
  next full =>
  exact .sent present linked different facing connected held (.sendmsg parsed full)

theorem write_effect {buf cred} :
    Effects before (.write id buf cred posted) (before.write id buf cred posted) := by
  unfold UdsStreamScheme.write
  split
  · trivial
  · exact .refused
  next receiverId receiver reached =>
  obtain ⟨sender, own, present, linked, rfl, different, facing⟩ := of_getConnectedPeer reached
  -- An empty buffer is not queued, so only the reply is left.
  have unchanged : buf = [] → Effect before (.write id buf cred posted)
      (some (told posted (.ok (.count buf.length)))) before := by
    rintro rfl
    cases posted with
    | none => exact .nothing .count nofun
    | some error => exact .refused
  split
  next listening =>
    rw [present]
    dsimp only
    rw [linked]
    dsimp only
    split
    next empty =>
      exact unchanged empty
    next full =>
    exact .parked present linked different facing listening full
  · split
    · exact .refused
    next connection required =>
    obtain ⟨connected, held⟩ := of_requireConnectedConnection required
    split
    next empty =>
      exact unchanged empty
    next full =>
    exact .sent present linked different facing connected held (.write full)

theorem sendfd_effect {obtained} :
    Effects before (.sendfd id obtained posted) (before.sendfd id obtained posted) := by
  unfold sendfd
  split
  · trivial
  · exact .refused
  next receiverId receiver reached =>
  obtain ⟨sender, own, present, linked, rfl, different, facing⟩ := of_getConnectedPeer reached
  split
  · exact .refused
  split
  · exact .refused
  next connection required =>
  obtain ⟨connected, held⟩ := of_requireConnectedConnection required
  exact .passed present linked different facing connected held

theorem handleRecvmsg_effect :
    Effects before (.recvmsg id noWait stream) (before.handleRecvmsg id noWait stream) := by
  unfold handleRecvmsg
  split
  · exact .refused
  next socket found =>
  split
  next connected =>
    split
    · exact .refused
    next connection held =>
    split
    · split
      · exact .eof
      · exact .refused
    next waiting =>
    unfold recvmsgInner
    split
    · exact .refused
    next nameLen iovSize cleared prepared =>
    split
    · trivial
    next changed _ serialized =>
    exact .received found connected held waiting prepared serialized
  · split
    · exact .eof
    · exact .refused
    · exact .refused

theorem read_effect {length flags} :
    Effects before (.read id length flags) (before.read id length flags) := by
  unfold UdsStreamScheme.read
  split
  · exact .refused
  next socket found =>
  split
  next connection required =>
    obtain ⟨connected, held⟩ := of_requireConnectedConnection required
    exact .read found connected held
  split
  · exact .nothing .bytes nofun
  · exact .refused
  · exact .refused

theorem handleRecvfd_effect : Effects before (.dupRecvfd id) (before.handleRecvfd id) := by
  unfold handleRecvfd
  split
  · exact .refused
  next socket found =>
  split
  next connected =>
    split
    · exact .refused
    next connection held =>
    split
    · exact .refused
    next fd rest queued =>
    exact .obtained found connected held queued .dup
  · exact .refused

theorem recvfd_effect {numFds moved} :
    Effects before (.recvfd id numFds moved) (before.recvfd id numFds moved) := by
  unfold recvfd
  split
  · exact .refused
  next socket found =>
  split
  · exact .nothing .fds nofun
  split
  next connected =>
    split
    · exact .refused
    next connection held =>
    split
    · split
      · exact .nothing .fds nofun
      · split
        · exact .refused
        · exact .nothing .wouldBlock nofun
    next enough =>
    have length : (connection.fds.take numFds).length = numFds := by
      rw [List.length_take]
      omega
    have obtains : Obtains id (connection.fds.take numFds)
        (.recvfd id (connection.fds.take numFds).length moved)
        (some (if moved then .ok (.fds (connection.fds.take numFds))
          else .error .EPROTO)) := .recvfd
    rw [length] at obtains
    exact .obtained found connected held (List.take_append_drop _ _).symm obtains
  · exact .refused

theorem handleConnectSocketpair_effect :
    Effects before (.dupConnect id posted) (before.handleConnectSocketpair id posted) := by
  unfold handleConnectSocketpair
  split
  · exact .refused
  next socket found =>
  split
  · exact .refused
  · split
    · exact .pairRefused found
    · exact .paired found

theorem acceptConnection_accept {clientId accepted}
    (done : before.acceptConnection id clientId listener posted = some (after, accepted)) :
    Accept id listener clientId before after := by
  unfold acceptConnection at done
  split at done
  next missing =>
    cases done
    exact .gone missing
  next client found =>
  split at done
  · cases done
  next different =>
  unfold Socket.establish at done
  by_cases connecting : client.state = .connecting
  · simp only [connecting, if_true] at done
    cases held : client.connection with
    | none =>
      simp only [held] at done
      cases done
      have changed : Accept id listener clientId before _ :=
        .elsewhere found different connecting (by simp [held])
      rwa [held] at changed
    | some connection =>
      simp only [held] at done
      by_cases expected : connection.peer = listener.primaryId
      · simp only [expected, if_true] at done
        have changed : Accept id listener clientId before _ :=
          .joined found different connecting held expected
        cases posted <;> cases done <;> exact changed
      · simp only [expected, if_false] at done
        cases done
        have changed : Accept id listener clientId before _ :=
          .elsewhere found different connecting (by simpa [held] using expected)
        rwa [held] at changed
  · simp only [connecting, if_false] at done
    cases done
    exact .busy found connecting

theorem acceptLoop_accepting {queue result posted}
    (done : acceptLoop posted id listener queue before = some (after, result)) :
    Accepting id listener queue before after := by
  induction queue generalizing before with
  | nil =>
    cases done
    exact .empty
  | cons client rest ih =>
    unfold acceptLoop at done
    dsimp only at done
    split at done
    · cases done
    next _ number taken =>
      cases done
      exact .stop (acceptConnection_accept taken)
    next between taken => exact .again (acceptConnection_accept taken) (ih done)
    next between taken => exact .again (acceptConnection_accept taken) (ih done)
    next between error _ taken =>
    cases done
    exact .stop (acceptConnection_accept taken)

theorem of_startListening (done : socket.startListening = .ok listener) :
    (socket.state = .unbound ∨ socket.state = .bound) ∧
      listener = { socket with state := .listening } := by
  unfold Socket.startListening at done
  cases state : socket.state <;> simp only [state] at done <;> cases done
  · exact ⟨.inl rfl, rfl⟩
  · exact ⟨.inr rfl, rfl⟩

/-- Nothing is changed, or the socket listens; it stays so where its path is another's. -/
theorem handleStartListening_cases :
    (∃ error, before.handleStartListening id socket = (before, .error error)) ∨
      (socket.state = .unbound ∨ socket.state = .bound) ∧ ∃ after result,
        before.handleStartListening id socket = (after, result) ∧ Starts id socket before after ∧
          (result = .ok { socket with state := .listening } ∨ result = .error .EADDRINUSE) := by
  unfold handleStartListening
  cases starting : socket.startListening with
  | error error => exact .inl ⟨error, rfl⟩
  | ok listener =>
    obtain ⟨fresh, rfl⟩ := of_startListening starting
    refine .inr ⟨fresh, _, _, rfl, ?_⟩
    split
    · exact ⟨.unnamed, .inl rfl⟩
    next path named =>
    split
    next existing taken =>
      split
      next own => exact ⟨.named named (.inr (own ▸ taken)), .inl rfl⟩
      · exact ⟨.unnamed, .inr rfl⟩
    next free => exact ⟨.named named (.inl free), .inl rfl⟩

theorem handleListen_effect {posted} :
    Effects before (.dupListen id posted) (before.handleListen id posted) := by
  unfold handleListen
  split
  · exact .refused
  next socket found =>
  split
  next listening =>
    exact .intro fun done => .listened found listening (acceptLoop_accepting done)
  rcases handleStartListening_cases with
    ⟨error, same⟩ | ⟨fresh, after, _, same, starts, rfl | rfl⟩ <;> rw [same]
  · exact .refused
  · exact .intro fun done => .started found fresh starts (acceptLoop_accepting done)
  · exact .startRefused found fresh starts

theorem onClose_closes : Ends (Closes before id) (before.onClose id) := by
  unfold onClose
  dsimp only
  split
  next missing => exact .absent missing
  next socket found =>
  split
  · trivial
  split
  next listening => exact .listener found listening
  next other =>
  unfold handleOtherClosure
  split
  next connected =>
    split
    next none => exact .alone found connected (by simp [none])
    next connection held =>
    split
    next missing =>
      refine .alone found connected ?_
      intro own same remote present
      cases held.symm.trans same
      cases missing.symm.trans present
    next remote present =>
    split
    next bare =>
      refine .alone found connected ?_
      intro own same actual found
      cases held.symm.trans same
      cases present.symm.trans found
      exact bare
    next back => exact .parted found connected held present back
  next unconnected => exact .unconnected found other (by simpa using unconnected)

end UdsStreamScheme

variable {before after : UdsStreamScheme}

theorem Effects.of_replied {output done} (effects : Effects before event done)
    (stepped : step.replied done = some (after, output)) : Effect before event output after := by
  obtain ⟨_, rfl, same⟩ := Option.map_eq_some_iff.mp stepped
  cases same
  exact effects

theorem step_effect {output} (stepped : step before event = some (after, output)) :
    Effect before event output after := by
  cases event with
  | schemeRoot =>
    cases stepped
    exact .root
  | close id =>
    obtain ⟨_, closed, same⟩ := Option.map_eq_some_iff.mp stepped
    cases same
    exact .closed (onClose_closes.of_eq closed)
  | openat => exact openat_effect.of_replied stepped
  | bind => exact handleBind_effect.of_replied stepped
  | connect => exact handleConnect_effect.of_replied stepped
  | unbind => exact handleUnbind_effect.of_replied stepped
  | setsockopt => exact handleSetsockopt_effect.of_replied stepped
  | sendmsg => exact handleSendmsg_effect.of_replied stepped
  | recvmsg => exact handleRecvmsg_effect.of_replied stepped
  | dupListen => exact handleListen_effect.of_replied stepped
  | dupConnect => exact handleConnectSocketpair_effect.of_replied stepped
  | dupRecvfd => exact handleRecvfd_effect.of_replied stepped
  | write => exact write_effect.of_replied stepped
  | read => exact read_effect.of_replied stepped
  | sendfd => exact sendfd_effect.of_replied stepped
  | recvfd => exact recvfd_effect.of_replied stepped
  | setFlags => exact setFlags_effect.of_replied stepped

end EosBase.Uds.Stream
