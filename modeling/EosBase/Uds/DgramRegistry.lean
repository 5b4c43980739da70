import EosBase.Uds.Dgram

/-!
# What the registries of datagram sockets refer to

A path is registered exactly while a socket is bound to it.  A token stays
registered when its socket is unbound; as long as that does not happen, tokens
are as exact as paths.
-/

namespace EosBase.Uds.Dgram

open Redox UdsDgramScheme Table Option Socket

def Live (this : UdsDgramScheme) (rc : Nat) (socket : Socket) : Prop :=
  (∃ id, this.handles.get? id = some (.socket rc)) ∧ this.sockets.get? rc = some socket

structure Socket.SameNames (before after : Socket) : Prop where
  primaryId : after.primaryId = before.primaryId
  path : after.path = before.path
  state : after.state = before.state
  issuedToken : after.issuedToken = before.issuedToken

/-- A registry holds the names of the bound sockets, and nothing else. -/
def Exact {Key : Type} [DecidableEq Key] (registry : Table Key Nat) (name : Socket → Option Key)
    (sockets : Table Nat Socket) : Prop :=
  ∀ key rc, registry.get? key = some rc ↔
    ∃ socket, sockets.get? rc = some socket ∧ socket.state = .bound ∧ name socket = some key

variable {changed socket : Socket} {rc : Nat}

namespace Exact

variable {Key : Type} [DecidableEq Key] {registry : Table Key Nat}
  {name : Socket → Option Key} {sockets : Table Nat Socket}

section

variable (exact_ : Exact registry name sockets)

include exact_

theorem own (found : sockets.get? rc = some socket) (key : Key) :
    registry.get? key = some rc ↔ socket.state = .bound ∧ name socket = some key := by
  simp only [exact_ key rc, found, some.injEq, exists_eq_left']

theorem update {after}
    (own : ∀ key, after.get? key = some rc ↔ changed.state = .bound ∧ name changed = some key)
    (others : ∀ {key other}, other ≠ rc →
      (after.get? key = some other ↔ registry.get? key = some other)) :
    Exact after name (sockets.insert rc changed) := by
  intro key other
  rw [get?_insert]
  split
  next same => simp only [same, own, some.injEq, exists_eq_left']
  next different => rw [others different, exact_]

theorem keep (found : sockets.get? rc = some socket) (state : changed.state = socket.state)
    (same : name changed = name socket) : Exact registry name (sockets.insert rc changed) := by
  refine exact_.update (fun key => ?_) fun _ => Iff.rfl
  rw [exact_.own found, state, same]

theorem appear (absent : sockets.get? rc = none)
    (unbound : changed.state ≠ .bound) : Exact registry name (sockets.insert rc changed) := by
  refine exact_.update (fun key => ?_) fun _ => Iff.rfl
  simp [exact_ key rc, absent, unbound]

theorem bind {key} (found : sockets.get? rc = some socket) (unbound : socket.state ≠ .bound)
    (bound : changed.state = .bound) (named : name changed = some key)
    (free : registry.get? key = none) :
    Exact (registry.insert key rc) name (sockets.insert rc changed) := by
  refine exact_.update (fun other => ?_) fun {other target} different => ?_
  · rw [get?_insert, named, some.injEq]
    split
    next same => exact iff_of_true rfl ⟨bound, same.symm⟩
    next another =>
      rw [exact_.own found]
      exact iff_of_false (fun taken => unbound taken.1) fun taken => another taken.2.symm
  · rw [get?_insert]
    split
    next same =>
      rw [same, free]
      exact iff_of_false (fun equal => different (some.inj equal).symm) nofun
    · exact Iff.rfl

theorem release (found : sockets.get? rc = some socket) (unbound : changed.state ≠ .bound)
    (quiet : socket.state ≠ .bound → name socket = none) :
    Exact (registry.eraseOf (name socket)) name (sockets.insert rc changed) := by
  have erased : ∀ key other, (registry.eraseOf (name socket)).get? key = some other ↔
      registry.get? key = some other ∧ name socket ≠ some key := by
    intro key other
    rw [Table.get?_eraseOf]
    split
    next same => simp [same]
    next different => simp [different]
  refine exact_.update (fun key => ?_) fun {key other} different => ?_
  · rw [erased, exact_.own found]
    exact iff_of_false (fun taken => taken.2 taken.1.2) fun taken => unbound taken.1
  · rw [erased]
    -- What is registered for another socket is not the name of this one.
    refine and_iff_left_of_imp fun registered named => ?_
    by_cases bound : socket.state = .bound
    · have own := (exact_.own found key).mpr ⟨bound, named⟩
      exact different (some.inj (registered.symm.trans own))
    · rw [quiet bound] at named
      cases named

end

end Exact

structure Registered (this : UdsDgramScheme) : Prop where
  referred : ∀ {id rc}, this.handles.get? id = some (.socket rc) →
    ∃ socket, this.sockets.get? rc = some socket
  handles : ∀ {id handle}, this.handles.get? id = some handle → id < this.nextId
  sockets : ∀ {rc socket}, this.sockets.get? rc = some socket →
    socket.primaryId = rc ∧ rc < this.nextId
  /-- A socket is closed with its first handle. -/
  first : ∀ {rc socket}, this.sockets.get? rc = some socket →
    (this.handles.get? rc = some (.socket rc) ↔ socket.state ≠ .closed)
  named : ∀ {rc socket}, this.sockets.get? rc = some socket → socket.state ≠ .bound →
    socket.path = none
  paths : Exact this.socketPaths path this.sockets

structure Issued (this : UdsDgramScheme) : Prop where
  unused : ∀ {rc socket}, this.sockets.get? rc = some socket → socket.state = .unbound →
    socket.issuedToken = none
  tokens : Exact this.socketTokens issuedToken this.sockets

variable {this : UdsDgramScheme} {id : Nat}

theorem getSocket_ok (found : this.getSocket id = some (rc, socket)) :
    this.handles.get? id = some (.socket rc) ∧ this.sockets.get? rc = some socket := by
  unfold getSocket at found
  split at found
  next held =>
    obtain ⟨_, present, same⟩ := map_eq_some_iff.mp found
    cases same
    exact ⟨held, present⟩
  · cases found

theorem getConnectedPeer_ok {remoteId remote}
    (done : this.getConnectedPeer id = .ok (remoteId, rc, remote)) :
    this.sockets.get? rc = some remote := by
  obtain ⟨⟨own, socket⟩, _, rest⟩ := ok_of_bind done
  obtain ⟨peer, _, finding⟩ := ok_of_bind rest
  obtain ⟨⟨other, target⟩, found, checking⟩ := ok_of_bind finding
  dsimp only at checking
  split at checking
  · cases checking
  · cases checking
    exact (getSocket_ok (okOr_ok found)).2

variable {tokens : Table Nat Nat} {path : Name}

namespace Registered

variable {handles : Table Nat Handle}

section

variable (registered : Registered this)

include registered

section

variable (found : this.sockets.get? rc = some socket)

include found

theorem replace {paths : Table Name Nat} (primary : changed.primaryId = socket.primaryId)
    (unnamed : changed.state ≠ .bound → changed.path = none)
    (fewer : ∀ {id handle}, handles.get? id = some handle → this.handles.get? id = some handle)
    (others : ∀ {other}, other ≠ rc → this.handles.get? other = some (.socket other) →
      handles.get? other = some (.socket other))
    (opened : handles.get? rc = some (.socket rc) ↔ changed.state ≠ .closed)
    (exact_ : Exact paths Socket.path (this.sockets.insert rc changed)) :
    Registered { this.setSocket rc changed with
      handles := handles
      socketPaths := paths
      socketTokens := tokens } where
  referred := by
    intro id other held
    obtain ⟨target, present⟩ := registered.referred (fewer held)
    change ∃ socket, (this.sockets.insert rc changed).get? other = some socket
    rw [get?_insert]
    split
    · exact ⟨changed, rfl⟩
    · exact ⟨target, present⟩
  handles := fun held => registered.handles (fewer held)
  sockets := by
    intro other target present
    rcases of_insert present with ⟨rfl, rfl⟩ | ⟨_, present⟩
    · obtain ⟨own, below⟩ := registered.sockets found
      exact ⟨primary.trans own, below⟩
    · exact registered.sockets present
  first := by
    intro other target present
    rcases of_insert present with ⟨rfl, rfl⟩ | ⟨different, present⟩
    · exact opened
    · rw [← registered.first present]
      exact ⟨fewer, others different⟩
  named := by
    intro other target present
    rcases of_insert present with ⟨_, rfl⟩ | ⟨_, present⟩
    · exact unnamed
    · exact registered.named present
  paths := exact_

theorem setSocket (same : socket.SameNames changed) : Registered (this.setSocket rc changed) := by
  refine registered.replace found same.primaryId ?_ (fun held => held) (fun _ held => held) ?_
    (registered.paths.keep found same.state same.path)
  · intro unbound
    rw [same.path]
    exact registered.named found (same.state ▸ unbound)
  · rw [same.state]
    exact registered.first found

end

theorem fresh (present : this.sockets.get? rc = some socket) : rc ≠ this.nextId :=
  (registered.sockets present).2.ne

theorem absent : this.sockets.get? this.nextId = none := by
  cases present : this.sockets.get? this.nextId with
  | none => rfl
  | some socket => exact absurd rfl (registered.fresh present)

theorem handles_insert {handle found}
    (held : (this.handles.insert this.nextId handle).get? id = some found) :
    id < this.nextId + 1 := by
  rcases of_insert held with ⟨rfl, _⟩ | ⟨_, earlier⟩
  · exact Nat.lt_succ_self _
  · exact Nat.lt_succ_of_lt (registered.handles earlier)

theorem opened (found : this.sockets.get? rc = some socket) (before : socket.state ≠ .closed)
    (after : changed.state ≠ .closed) :
    this.handles.get? rc = some (.socket rc) ↔ changed.state ≠ .closed := by
  rw [registered.first found]
  exact iff_of_true before after

theorem addSocket {new} (primary : new.primaryId = this.nextId) (unbound : new.state = .unbound)
    (unnamed : new.path = none) : Registered (this.addSocket new) := by
  have kept : ∀ {rc socket}, this.sockets.get? rc = some socket →
      (this.addSocket new).sockets.get? rc = some socket :=
    fun present => (get?_insert_of_ne _ (registered.fresh present)).trans present
  refine ⟨?_, registered.handles_insert, ?_, ?_, ?_, ?_⟩
  · intro id rc held
    rcases of_insert held with ⟨_, same⟩ | ⟨_, earlier⟩
    · cases same
      exact ⟨new, get?_insert_self _ _ _⟩
    · obtain ⟨socket, present⟩ := registered.referred earlier
      exact ⟨socket, kept present⟩
  · intro rc socket present
    rcases of_insert present with ⟨rfl, rfl⟩ | ⟨_, earlier⟩
    · exact ⟨primary, Nat.lt_succ_self _⟩
    · obtain ⟨own, bound⟩ := registered.sockets earlier
      exact ⟨own, Nat.lt_succ_of_lt bound⟩
  · intro rc socket present
    rcases of_insert present with ⟨rfl, rfl⟩ | ⟨_, earlier⟩
    · rw [unbound]
      exact iff_of_true (get?_insert_self _ _ _) (fun impossible => by cases impossible)
    · rw [← registered.first earlier]
      exact Eq.congr_left (get?_insert_of_ne _ (registered.fresh earlier))
  · intro rc socket present other
    rcases of_insert present with ⟨rfl, rfl⟩ | ⟨_, earlier⟩
    · exact unnamed
    · exact registered.named earlier other
  · exact registered.paths.appear registered.absent (by simp [unbound])

theorem addHandle {handle}
    (refers : ∀ rc, handle = .socket rc → ∃ socket, this.sockets.get? rc = some socket) :
    Registered (this.addHandle handle) := by
  refine ⟨?_, registered.handles_insert, ?_, ?_, registered.named, registered.paths⟩
  · intro id rc held
    rcases of_insert held with ⟨_, same⟩ | ⟨_, earlier⟩
    · exact refers rc same.symm
    · exact registered.referred earlier
  · intro rc socket present
    obtain ⟨own, bound⟩ := registered.sockets present
    exact ⟨own, Nat.lt_succ_of_lt bound⟩
  · intro rc socket present
    rw [← registered.first present]
    exact Eq.congr_left (get?_insert_of_ne _ (registered.fresh present))

theorem bind (found : this.sockets.get? rc = some socket) (unbound : socket.state = .unbound)
    (primary : changed.primaryId = socket.primaryId) (bound : changed.state = .bound)
    (named : changed.path = some path) (free : this.socketPaths.get? path = none) :
    Registered { this.setSocket rc changed with
      socketPaths := this.socketPaths.insert path rc
      socketTokens := tokens } :=
  registered.replace found primary (fun other => absurd bound other) (fun held => held)
    (fun _ held => held) (registered.opened found (by simp [unbound]) (by simp [bound]))
    (registered.paths.bind found (by simp [unbound]) bound named free)

end

theorem release (changed : Socket) (registered : Registered this)
    (found : this.sockets.get? rc = some socket) (primary : changed.primaryId = socket.primaryId)
    (unbound : changed.state ≠ .bound) (unnamed : changed.path = none)
    (fewer : ∀ {id handle}, handles.get? id = some handle → this.handles.get? id = some handle)
    (others : ∀ {other}, other ≠ rc → this.handles.get? other = some (.socket other) →
      handles.get? other = some (.socket other))
    (opened : handles.get? rc = some (.socket rc) ↔ changed.state ≠ .closed) :
    Registered { this.setSocket rc changed with
      handles := handles
      socketPaths := this.socketPaths.eraseOf socket.path
      socketTokens := tokens } :=
  registered.replace found primary (fun _ => unnamed) fewer others opened
    (registered.paths.release found unbound (registered.named found))

theorem closeAlias (registered : Registered this)
    (secondary : this.handles.get? id ≠ some (.socket id)) :
    Registered { this with handles := this.handles.erase id } := by
  have fewer : ∀ {other handle}, (this.handles.erase id).get? other = some handle →
      this.handles.get? other = some handle := by
    intro other handle held
    exact (of_erase held).2
  refine ⟨fun held => registered.referred (fewer held), fun held => registered.handles (fewer held),
    registered.sockets, ?_, registered.named, registered.paths⟩
  intro rc socket present
  rw [← registered.first present]
  refine ⟨fewer, ?_⟩
  intro opened
  rw [get?_erase, if_neg]
  · exact opened
  · rintro rfl
    exact secondary opened

end Registered

/-- The changes that requests make to what the registries are about.  `careful`
is what a request has to respect for the tokens. -/
inductive Change (careful : Prop) : UdsDgramScheme → UdsDgramScheme → Prop where
  | refl (state) : Change careful state state
  | trans {first second third} :
      Change careful first second → Change careful second third → Change careful first third
  | keep {state rc socket changed} (found : state.sockets.get? rc = some socket)
      (same : socket.SameNames changed) : Change careful state (state.setSocket rc changed)
  | addSocket {state new} (primary : new.primaryId = state.nextId)
      (unbound : new.state = .unbound) (unnamed : new.path = none)
      (unissued : new.issuedToken = none) : Change careful state (state.addSocket new)
  | addHandle {state handle}
      (refers : ∀ rc, handle = .socket rc → ∃ socket, state.sockets.get? rc = some socket) :
      Change careful state (state.addHandle handle)
  | bind {state rc socket path token} (found : state.sockets.get? rc = some socket)
      (unbound : socket.state = .unbound) (free : state.socketPaths.get? path = none)
      (fresh : careful → state.socketTokens.get? token = none) :
      Change careful state
        { state.setSocket rc
            { socket with path := some path, state := .bound, issuedToken := some token } with
          socketPaths := state.socketPaths.insert path rc
          socketTokens := state.socketTokens.insert token rc }
  | unbind {state rc socket} (found : state.sockets.get? rc = some socket)
      (bound : socket.state = .bound) (careless : ¬ careful) :
      Change careful state
        { state.setSocket rc { socket with state := .unbound, path := none } with
          socketPaths := state.socketPaths.eraseOf socket.path }
  | close {state id} : Change careful state (state.onClose id)

theorem Registered.onClose (registered : Registered this) : Registered (this.onClose id) := by
  unfold UdsDgramScheme.onClose
  split
  next missing =>
    apply registered.closeAlias
    intro held
    obtain ⟨socket, present⟩ := registered.referred held
    simp [getSocket, held, present] at missing
  next rc socket found =>
  obtain ⟨held, present⟩ := getSocket_ok found
  split
  next primary =>
    obtain ⟨own, _⟩ := registered.sockets present
    have same : rc = id := own.symm.trans primary
    subst same
    apply registered.release { socket with state := .closed, peer := none, path := none }
      present rfl (by simp) rfl
    · intro other handle kept
      exact (of_erase kept).2
    · intro other different opened
      change (this.handles.erase rc).get? other = _
      rw [get?_erase, if_neg different]
      exact opened
    · change (this.handles.erase rc).get? rc = _ ↔ _
      rw [get?_erase_self]
      exact iff_of_false (fun impossible => by cases impossible) (fun open_ => open_ rfl)
  next secondary =>
  apply registered.closeAlias
  intro own
  rw [held] at own
  cases own
  exact secondary (registered.sockets present).1

variable {careful : Prop} {after before : UdsDgramScheme}

theorem Change.registered (change : Change careful before after) (registered : Registered before) :
    Registered after := by
  induction change with
  | refl this => exact registered
  | trans _ _ earlier later => exact later (earlier registered)
  | keep found same => exact registered.setSocket found same
  | addSocket primary unbound unnamed _ => exact registered.addSocket primary unbound unnamed
  | addHandle refers => exact registered.addHandle refers
  | bind found unbound free _ => exact registered.bind found unbound rfl rfl rfl free
  | @unbind this rc socket found bound _ =>
    exact registered.release { socket with state := .unbound, path := none } found rfl
      (by simp) rfl (fun held => held) (fun _ held => held)
      (registered.opened found (by simp [bound]) (by simp))
  | close => exact registered.onClose

theorem Issued.insert (issued : Issued this)
    (sockets : after.sockets = this.sockets.insert rc changed)
    (unused : changed.state = .unbound → changed.issuedToken = none)
    (tokens : Exact after.socketTokens issuedToken (this.sockets.insert rc changed)) :
    Issued after := by
  refine ⟨?_, sockets ▸ tokens⟩
  intro other target present
  rw [sockets] at present
  rcases of_insert present with ⟨_, rfl⟩ | ⟨_, earlier⟩
  · exact unused
  · exact issued.unused earlier

theorem Change.issued (change : Change careful before after) (respected : careful)
    (registered : Registered before) (issued : Issued before) : Issued after := by
  induction change with
  | refl this => exact issued
  | trans first _ earlier later =>
    exact later (first.registered registered) (earlier registered issued)
  | @keep this rc socket changed found same =>
    refine issued.insert rfl ?_ (issued.tokens.keep found same.state same.issuedToken)
    rw [same.state, same.issuedToken]
    exact issued.unused found
  | addSocket _ unbound _ unissued =>
    exact issued.insert rfl (fun _ => unissued)
      (issued.tokens.appear registered.absent (by simp [unbound]))
  | addHandle _ => exact ⟨issued.unused, issued.tokens⟩
  | bind found unbound _ fresh =>
    exact issued.insert rfl (fun impossible => by cases impossible)
      (issued.tokens.bind found (by simp [unbound]) rfl rfl (fresh respected))
  | unbind _ _ careless => exact absurd respected careless
  | @close this id =>
    unfold onClose
    split
    · exact ⟨issued.unused, issued.tokens⟩
    next rc socket found =>
    obtain ⟨held, present⟩ := getSocket_ok found
    split
    next primary =>
      have same : rc = id := (registered.sockets present).1.symm.trans primary
      have opened := (registered.first present).mp (same ▸ held)
      refine issued.insert rfl (fun impossible => by cases impossible)
        (issued.tokens.release present
          (show State.closed ≠ .bound from fun impossible => by cases impossible) ?_)
      -- An open socket that is not bound has no token.
      intro other
      apply issued.unused present
      cases state : socket.state with
      | unbound => rfl
      | bound => exact absurd state other
      | closed => exact absurd state opened
    · exact ⟨issued.unused, issued.tokens⟩

/-- A request that unbinds no bound socket, and whose token is not in use. -/
def Careful (this : UdsDgramScheme) : Event → Prop
  | .unbind id => ∀ found ∈ this.getSocket id, found.2.state ≠ .bound
  | .bind _ _ token => this.socketTokens.get? token = none
  | _ => True

instance (this : UdsDgramScheme) (event : Event) : Decidable (Careful this event) := by
  cases event <;> unfold Careful <;> infer_instance

variable {posted : Option Errno}

theorem posting_state {reply} : (this.posting posted reply).1 = this := by
  cases posted <;> rfl

theorem handleBind_change {token path} (fresh : careful → this.socketTokens.get? token = none) :
    Change careful this (this.handleBind id path token).1 := by
  unfold handleBind
  split
  · exact .refl _
  next path =>
  split
  · exact .refl _
  split
  · exact .refl _
  next unused =>
  split
  · exact .refl _
  next rc socket found =>
  split
  next unbound =>
    have free : this.socketPaths.get? path = none := by
      simpa [contains] using unused
    exact .bind (getSocket_ok found).2 unbound free fresh
  · exact .refl _

theorem handleConnect_change {tokenBuf} :
    Change careful this (this.handleConnect id tokenBuf).1 := by
  unfold handleConnect
  split
  · exact .refl _
  split
  · exact .refl _
  split
  · exact .refl _
  split
  · split
    · exact .refl _
    next found => exact .keep (getSocket_ok found).2 ⟨rfl, rfl, rfl, rfl⟩
  · exact .refl _

theorem handleUnbind_change
    (careless : ∀ found ∈ this.getSocket id, found.2.state = .bound → ¬ careful) :
    Change careful this (this.handleUnbind id).1 := by
  unfold handleUnbind
  split
  · exact .refl _
  next rc socket found =>
  split
  next bound =>
    have unbinding := Change.unbind (getSocket_ok found).2 bound
      (careless (rc, socket) (by rw [found]; rfl) bound)
    cases named : socket.path with
    | none | some =>
      rw [named] at unbinding
      exact unbinding
  · exact .refl _

theorem handleSetsockopt_change {passcred value} : Change careful this
    (this.handleSetsockopt id passcred value).1 := by
  unfold handleSetsockopt
  split
  · exact .refl _
  next found =>
  split
  · split
    · exact .keep (getSocket_ok found).2 ⟨rfl, rfl, rfl, rfl⟩
    · exact .refl _
  · exact .refl _

theorem handleSendmsg_change {stream creds} :
    Change careful this (this.handleSendmsg id stream creds posted).1 := by
  unfold handleSendmsg
  split
  · exact .refl _
  split
  · exact .refl _
  dsimp only
  split
  · exact .refl _
  next rc remote message read =>
  obtain ⟨⟨_, _, _⟩, peer, rest⟩ := ok_of_bind read
  obtain ⟨_, _, reading⟩ := ok_of_bind rest
  obtain ⟨_, _, finished⟩ := ok_of_bind reading
  cases finished
  rw [posting_state]
  exact .keep (getConnectedPeer_ok peer) ⟨rfl, rfl, rfl, rfl⟩

theorem handleRecvmsg_change {stream} : Change careful this (this.handleRecvmsg id stream).1 := by
  unfold handleRecvmsg
  split
  · exact .refl _
  next rc socket found =>
  have present := (getSocket_ok found).2
  split
  · exact .refl _
  next message rest queued =>
  split
  · exact .keep present ⟨rfl, rfl, rfl, rfl⟩
  next nameLen iovSize cleared _ =>
  refine .keep present ?_
  unfold serializeToStream
  dsimp only
  split <;> exact ⟨rfl, rfl, rfl, rfl⟩

theorem handleConnectSocketpair_change :
    Change careful this (this.handleConnectSocketpair id posted).1 := by
  unfold handleConnectSocketpair
  split
  · exact .refl _
  next rc socket found =>
  split
  · exact .refl _
  have connected : Change careful this
      (this.setSocket rc { socket with peer := some this.nextId }) :=
    .keep (getSocket_ok found).2 ⟨rfl, rfl, rfl, rfl⟩
  split
  · exact connected
  · apply connected.trans
    exact .addSocket rfl rfl rfl rfl

theorem handleRecvfd_change : Change careful this (this.handleRecvfd id).1 := by
  unfold handleRecvfd
  split
  · exact .refl _
  next found =>
  split
  · exact .refl _
  · exact .keep (getSocket_ok found).2 ⟨rfl, rfl, rfl, rfl⟩

theorem handleListen_change : Change careful this (this.handleListen id).1 := by
  unfold handleListen
  split
  · exact .refl _
  next rc socket found =>
  apply Change.addHandle
  intro target same
  cases same
  exact ⟨socket, (getSocket_ok found).2⟩

theorem writeInner_change {buf cred} :
    Change careful this (this.writeInner id buf cred posted).1 := by
  unfold writeInner
  split
  · exact .refl _
  split
  · exact .refl _
  split
  · exact .refl _
  split
  · exact .refl _
  next peer =>
  rw [posting_state]
  exact .keep (getConnectedPeer_ok peer) ⟨rfl, rfl, rfl, rfl⟩

theorem readInner_change {length flags} :
    Change careful this (this.readInner id length flags).1 := by
  unfold readInner
  split
  · exact .refl _
  next found =>
  split
  · exact .refl _
  · exact .keep (getSocket_ok found).2 ⟨rfl, rfl, rfl, rfl⟩

theorem sendfdInner_change {obtained} : Change careful this
    (this.sendfdInner id obtained posted).1 := by
  unfold sendfdInner
  split
  · exact .refl _
  split
  · exact .refl _
  split
  · exact .refl _
  next peer =>
  rw [posting_state]
  exact .keep (getConnectedPeer_ok peer) ⟨rfl, rfl, rfl, rfl⟩

theorem recvfdInner_change {numFds moved} :
    Change careful this (this.recvfdInner id numFds moved).1 := by
  unfold recvfdInner
  split
  · exact .refl _
  split
  · exact .refl _
  next found =>
  split
  · exact .refl _
  · exact .keep (getSocket_ok found).2 ⟨rfl, rfl, rfl, rfl⟩

theorem setFlags_change {arg} : Change careful this (this.setFlags id arg).1 := by
  unfold setFlags
  split
  · exact .refl _
  next found => exact .keep (getSocket_ok found).2 ⟨rfl, rfl, rfl, rfl⟩

theorem openat_change {fd flags} : Change careful this (this.openat fd path flags).1 := by
  unfold openat
  split
  · exact .refl _
  · exact .refl _
  · split
    · exact .addSocket rfl rfl rfl rfl
    · exact .refl _

theorem handle_change {event} : Change (Careful this event) this (handle this event).1 := by
  cases event with
  | schemeRoot =>
    apply Change.addHandle
    intro rc same
    cases same
  | openat fd path flags => exact openat_change
  | bind id path token => exact handleBind_change fun fresh => fresh
  | connect id tokenBuf => exact handleConnect_change
  | unbind id =>
    apply handleUnbind_change
    intro found present bound careful
    exact careful found present bound
  | setsockopt id passcred value => exact handleSetsockopt_change
  | sendmsg id stream creds posted => exact handleSendmsg_change
  | recvmsg id stream => exact handleRecvmsg_change
  | dupConnect id posted => exact handleConnectSocketpair_change
  | dupRecvfd id => exact handleRecvfd_change
  | dupListen id => exact handleListen_change
  | write id buf cred posted => exact writeInner_change
  | read id length flags => exact readInner_change
  | sendfd id obtained posted => exact sendfdInner_change
  | recvfd id numFds moved => exact recvfdInner_change
  | setFlags id arg => exact setFlags_change
  | close id => exact .close

variable {Key : Type} {name : Socket → Option Key}

theorem exact_empty [DecidableEq Key] : Exact (empty : Table Key Nat) name .empty := by
  intro key rc
  constructor
  · intro registered
    cases registered
  · rintro ⟨socket, present, _⟩
    cases present

theorem registered_start : Registered dgram.start where
  referred held := by cases held
  handles held := by cases held
  sockets present := by cases present
  first present := by cases present
  named present := by cases present
  paths := exact_empty

theorem issued_start : Issued dgram.start where
  unused present := by cases present
  tokens := exact_empty

theorem reachable_registered {state allowed}
    (reached : dgram.ReachableWhile allowed state) : Registered state := by
  refine reached.invariant registered_start ?_
  intro before event after output _ registered _ stepped
  have same : (handle before event).1 = after := congrArg Prod.fst (some.inj stepped)
  rw [← same]
  exact (handle_change).registered registered

theorem careful_issued {state} (reached : dgram.ReachableWhile Careful state) : Issued state := by
  refine reached.invariant issued_start ?_
  intro before event after output earlier issued careful stepped
  have same : (handle before event).1 = after := congrArg Prod.fst (some.inj stepped)
  rw [← same]
  exact (handle_change).issued careful (reachable_registered earlier) issued

def Matches {Key : Type} [DecidableEq Key] (this : UdsDgramScheme) (registry : Table Key Nat)
    (name : Socket → Option Key) : Prop :=
  ∀ key, (∃ rc, registry.get? key = some rc) ↔
    ∃ rc socket, Live this rc socket ∧ socket.state = .bound ∧ name socket = some key

theorem Registered.matches_ [DecidableEq Key] {registry}
    (registered : Registered this) (exact_ : Exact registry name this.sockets) :
    Matches this registry name := by
  intro key
  constructor
  · rintro ⟨rc, found⟩
    obtain ⟨socket, present, bound, named⟩ := (exact_ key rc).mp found
    have opened := (registered.first present).mpr (by simp [bound])
    exact ⟨rc, socket, ⟨⟨rc, opened⟩, present⟩, bound, named⟩
  · rintro ⟨rc, socket, ⟨_, present⟩, bound, named⟩
    exact ⟨rc, (exact_ key rc).mpr ⟨socket, present, bound, named⟩⟩

def Connects (this : UdsDgramScheme) : Prop :=
  ∀ {id tokenBuf token}, (this.getSocket id).isSome = true → readNum 8 tokenBuf = .ok token →
    ((this.handleConnect id tokenBuf).2 = .ok (.count 0) ↔
      ∃ rc socket, Live this rc socket ∧ socket.state = .bound ∧
        socket.issuedToken = some token)

theorem Registered.connects (registered : Registered this) (issued : Issued this) :
    Connects this := by
  intro id tokenBuf token live read
  rw [← registered.matches_ issued.tokens token]
  obtain ⟨⟨own, client⟩, found⟩ := isSome_iff_exists.mp live
  unfold handleConnect
  rw [read]
  dsimp only
  cases registration : this.socketTokens.get? token with
  | none =>
    refine iff_of_false ?_ ?_
    · intro impossible
      cases impossible
    · rintro ⟨rc, impossible⟩
      cases impossible
  | some rc =>
    obtain ⟨target, present, _, token_⟩ := (issued.tokens token rc).mp registration
    rw [bind_some, present]
    dsimp only
    rw [token_]
    dsimp only
    rw [if_pos rfl, found]
    exact iff_of_true rfl ⟨rc, rfl⟩

/-- Paths always, and tokens while nothing is unbound, belong to bound sockets. -/
theorem dgram_registries {state : UdsDgramScheme} (reached : dgram.Reachable state) :
    Matches state state.socketPaths Socket.path ∧
      (dgram.ReachableWhile Careful state →
        Matches state state.socketTokens Socket.issuedToken ∧ Connects state) := by
  have registered := reachable_registered reached
  refine ⟨registered.matches_ registered.paths, ?_⟩
  intro carefully
  have issued := careful_issued carefully
  exact ⟨registered.matches_ issued.tokens, registered.connects issued⟩

def bindFirst : List Event :=
  [.schemeRoot, .openat 0 [] 0x02000000, .openat 0 [] 0x02000000, .bind 1 (some [0x61]) 7]

theorem dgram_registries_bound : ∃ state, dgram.ReachableWhile Careful state ∧
      Matches state state.socketPaths Socket.path ∧
      Matches state state.socketTokens Socket.issuedToken ∧ Connects state := by
  have reached := dgram.reachableWhile_replay Careful bindFirst (by decide +kernel)
  obtain ⟨paths, tokens⟩ := dgram_registries reached.reachable
  exact ⟨_, reached, paths, tokens reached⟩

/-- After an unbind the token still connects. -/
theorem unbound_token_connects : ∃ state, dgram.Reachable state ∧
      (∃ rc, state.socketTokens.get? 7 = some rc) ∧
      (¬ ∃ rc socket, Live state rc socket ∧ socket.state = .bound ∧ socket.issuedToken = some 7) ∧
      (state.handleConnect 2 (leBytes 8 7)).2 = .ok (.count 0) := by
  have reached := dgram.reachable_replay (bindFirst ++ [.unbind 1]) (by decide +kernel)
  refine ⟨_, reached, ⟨1, rfl⟩, ?_, rfl⟩
  rintro ⟨rc, socket, ⟨_, present⟩, bound, _⟩
  have some_bound := (any_eq_true_iff _ (fun _ socket => decide (socket.state = .bound))).mpr
    ⟨rc, socket, present, by simpa using bound⟩
  cases some_bound

end EosBase.Uds.Dgram
