import EosBase.Uds.StreamEffect

/-!
# The tables of stream sockets

A socket stays under its own number, numbers are given out once, and a connection
names a socket that there is or was.
-/

namespace EosBase.Uds.Stream

open Redox UdsStreamScheme Table List.Subset Nat Connection

structure WellFormed (this : UdsStreamScheme) : Prop where
  numbered : ∀ {id socket}, this.sockets.get? id = some socket →
    socket.primaryId = id ∧ id < this.nextId ∧ this.handles.get? id ≠ some .schemeRoot
  held : ∀ {id handle}, this.handles.get? id = some handle → id < this.nextId
  kept : ∀ {id}, this.handles.get? id = some .socket → ∃ socket, this.sockets.get? id = some socket
  /-- A peer is a socket, whether or not it is still open. -/
  peers : ∀ {id socket connection}, this.sockets.get? id = some socket →
    socket.connection = some connection →
    connection.peer < this.nextId ∧ this.handles.get? connection.peer ≠ some .schemeRoot

structure Socket.SamePeer (before after : Socket) : Prop where
  primaryId : after.primaryId = before.primaryId
  peer : after.connection.map peer = before.connection.map peer

variable {socket changed : Socket} {id : Nat} {after this before : UdsStreamScheme} {client : Nat}
  {queue : List Nat} {listener : Socket}

namespace WellFormed

theorem start : WellFormed stream.start where
  numbered found := by simp [stream] at found
  held found := by simp [stream] at found
  kept found := by simp [stream] at found
  peers found := by simp [stream] at found

section

variable (wellFormed : WellFormed this)

include wellFormed

theorem number (found : this.getSocket id = some socket) : socket.primaryId = id :=
  (wellFormed.numbered (get?_of_getSocket found)).1

theorem lt_nextId (found : this.getSocket id = some socket) : id < this.nextId :=
  wellFormed.held (handle_of_getSocket found)

theorem unused (fresh : this.nextId ≤ id) : this.getSocket id = none := by
  cases found : this.getSocket id with
  | none => rfl
  | some socket => exact absurd (wellFormed.lt_nextId found) (by omega)

theorem peer_closed {connection} (found : this.getSocket id = some socket)
    (held : socket.connection = some connection) (gone : this.getSocket connection.peer = none) :
    this.handles.get? connection.peer = none := by
  obtain ⟨_, notRoot⟩ := wellFormed.peers (get?_of_getSocket found) held
  cases handle : this.handles.get? connection.peer with
  | none => rfl
  | some kind =>
    cases kind with
    | schemeRoot => exact absurd handle notRoot
    | socket =>
      obtain ⟨peer, present⟩ := wellFormed.kept handle
      cases gone.symm.trans (getSocket_of_held handle present)

theorem getSocket_schemeRoot {other} : this.schemeRoot.getSocket other = this.getSocket other := by
  by_cases here : other = this.nextId
  · subst here
    rw [wellFormed.unused le_rfl]
    unfold getSocket UdsStreamScheme.schemeRoot
    simp
  · unfold getSocket UdsStreamScheme.schemeRoot
    rw [get?_insert_of_ne _ here]

theorem registries (paths : Table Name Nat) (tokens : Table Nat Nat) :
    WellFormed { this with socketPaths := paths, socketTokens := tokens } :=
  ⟨wellFormed.numbered, wellFormed.held, wellFormed.kept, wellFormed.peers⟩

theorem place (number : changed.primaryId = id) (below : id < this.nextId)
    (notRoot : this.handles.get? id ≠ some .schemeRoot)
    (peer : ∀ connection, changed.connection = some connection →
      connection.peer < this.nextId ∧ this.handles.get? connection.peer ≠ some .schemeRoot) :
    WellFormed (this.setSocket id changed) where
  numbered {other candidate} present := by
    rcases of_insert present with ⟨rfl, rfl⟩ | ⟨_, present⟩
    · exact ⟨number, below, notRoot⟩
    · exact wellFormed.numbered present
  held := wellFormed.held
  kept {other} handle := by
    change ∃ candidate, (this.sockets.insert id changed).get? other = some candidate
    rw [get?_insert]
    split
    · exact ⟨changed, rfl⟩
    · exact wellFormed.kept handle
  peers {other candidate connection} present connected := by
    rcases of_insert present with ⟨_, rfl⟩ | ⟨_, present⟩
    · exact peer connection connected
    · exact wellFormed.peers present connected

section

variable (found : this.sockets.get? id = some socket)

include found

theorem setSocket (number : changed.primaryId = socket.primaryId)
    (peer : ∀ connection, changed.connection = some connection →
      connection.peer < this.nextId ∧ this.handles.get? connection.peer ≠ some .schemeRoot) :
    WellFormed (this.setSocket id changed) := by
  obtain ⟨own, below, notRoot⟩ := wellFormed.numbered found
  exact wellFormed.place (number.trans own) below notRoot peer

theorem setSamePeer (same : socket.SamePeer changed) : WellFormed (this.setSocket id changed) := by
  refine wellFormed.setSocket found same.primaryId ?_
  intro connection held
  have peer := same.peer
  rw [held] at peer
  obtain ⟨old, present, equal⟩ := Option.map_eq_some_iff.mp peer.symm
  rw [← equal]
  exact wellFormed.peers found present

end

theorem later : WellFormed { this with nextId := this.nextId + 1 } where
  numbered present := by
    obtain ⟨own, below, notRoot⟩ := wellFormed.numbered present
    exact ⟨own, lt_succ_of_lt below, notRoot⟩
  held present := lt_succ_of_lt (wellFormed.held present)
  kept := wellFormed.kept
  peers present connected := by
    obtain ⟨below, notRoot⟩ := wellFormed.peers present connected
    exact ⟨lt_succ_of_lt below, notRoot⟩

theorem holdSocket (found : this.sockets.get? id = some socket) :
    WellFormed { this with handles := this.handles.insert id .socket } := by
  have notRoot : ∀ {other}, this.handles.get? other ≠ some .schemeRoot →
      (this.handles.insert id .socket).get? other ≠ some .schemeRoot := by
    intro other before root
    rcases of_insert root with ⟨_, impossible⟩ | ⟨_, root⟩
    · cases impossible
    · exact before root
  refine ⟨?_, ?_, ?_, ?_⟩
  · intro other candidate present
    obtain ⟨own, below, before⟩ := wellFormed.numbered present
    exact ⟨own, below, notRoot before⟩
  · intro other handle held
    rcases of_insert held with ⟨rfl, _⟩ | ⟨_, held⟩
    · exact (wellFormed.numbered found).2.1
    · exact wellFormed.held held
  · intro other held
    rcases of_insert held with ⟨rfl, _⟩ | ⟨_, held⟩
    · exact ⟨socket, found⟩
    · exact wellFormed.kept held
  · intro other candidate connection present connected
    obtain ⟨below, before⟩ := wellFormed.peers present connected
    exact ⟨below, notRoot before⟩

theorem unheld {handle} : this.handles.get? this.nextId ≠ some handle :=
  fun held => (wellFormed.held held).false

theorem addSocket (number : changed.primaryId = this.nextId)
    (peer : ∀ connection, changed.connection = some connection →
      connection.peer < this.nextId ∧ this.handles.get? connection.peer ≠ some .schemeRoot) :
    WellFormed (this.addSocket changed) := by
  refine (wellFormed.later.place number (lt_succ_self _) wellFormed.unheld ?_).holdSocket
    (get?_insert_self _ _ _)
  intro connection held
  obtain ⟨below, notRoot⟩ := peer connection held
  exact ⟨lt_succ_of_lt below, notRoot⟩

theorem schemeRoot : WellFormed this.schemeRoot where
  numbered {other candidate} present := by
    obtain ⟨own, below, notRoot⟩ := wellFormed.numbered present
    change _ ∧ other < this.nextId + 1 ∧
      (this.handles.insert this.nextId .schemeRoot).get? other ≠ some .schemeRoot
    rw [get?_insert_of_ne _ (by omega)]
    exact ⟨own, by omega, notRoot⟩
  held {other handle} present := by
    rcases of_insert present with ⟨rfl, _⟩ | ⟨_, present⟩
    · exact lt_succ_self _
    · exact lt_succ_of_lt (wellFormed.held present)
  kept {other} handle := by
    rcases of_insert handle with ⟨_, impossible⟩ | ⟨_, handle⟩
    · cases impossible
    · exact wellFormed.kept handle
  peers {other candidate connection} present connected := by
    obtain ⟨below, notRoot⟩ := wellFormed.peers present connected
    change _ < this.nextId + 1 ∧ (this.handles.insert this.nextId .schemeRoot).get? _ ≠ _
    rw [get?_insert_of_ne _ (by omega)]
    exact ⟨by omega, notRoot⟩

theorem without : WellFormed (this.without id) where
  numbered {other candidate} present := by
    obtain ⟨own, below, notRoot⟩ := wellFormed.numbered present
    exact ⟨own, below, fun root => notRoot (of_erase root).2⟩
  held {other handle} present := by
    exact wellFormed.held (of_erase present).2
  kept {other} handle := by
    exact wellFormed.kept (of_erase handle).2
  peers {other candidate connection} present connected := by
    obtain ⟨below, notRoot⟩ := wellFormed.peers present connected
    exact ⟨below, fun root => notRoot (of_erase root).2⟩

theorem join {client new} (found : this.getSocket id = some socket)
    (number : client.primaryId = socket.primaryId) (newNumber : new.primaryId = this.nextId)
    (facing : client.connection.map peer = some this.nextId)
    (newFacing : new.connection.map peer = some id) :
    WellFormed ((this.setSocket id client).addSocket new) := by
  have below := lt_succ_of_lt (wellFormed.lt_nextId found)
  have notRoot : this.handles.get? id ≠ some .schemeRoot := by
    rw [handle_of_getSocket found]
    simp
  have joined : WellFormed ({ this with nextId := this.nextId + 1 }.setSocket id client) := by
    refine wellFormed.later.place (number.trans (wellFormed.number found)) below notRoot ?_
    intro connection held
    rw [held] at facing
    rw [show connection.peer = this.nextId from Option.some.inj facing]
    exact ⟨lt_succ_self _, wellFormed.unheld⟩
  refine (joined.place newNumber (lt_succ_self _) wellFormed.unheld ?_).holdSocket
    (get?_insert_self _ _ _)
  intro connection held
  rw [held] at newFacing
  rw [show connection.peer = id from Option.some.inj newFacing]
  exact ⟨below, notRoot⟩

end

end WellFormed

namespace Accepting

def Present (id : Nat) (listener : Socket) (this : UdsStreamScheme) : Prop :=
  id < this.nextId ∧ ∃ waiting, this.getSocket id = some { listener with awaiting := waiting }

theorem Present.dequeue {rest} (present : Present id listener this) :
    Present id listener (this.setSocket id { listener with awaiting := rest }) := by
  obtain ⟨below, waiting, found⟩ := present
  exact ⟨below, rest, getSocket_setSocket_self found⟩

theorem getSocket_accept {next} (accepted : Accept id listener client this next)
    (below : id < this.nextId) (found : this.getSocket id = some socket) :
    id < next.nextId ∧ next.getSocket id = some socket := by
  cases accepted with
  | gone => exact ⟨below, found⟩
  | @busy actual present =>
    refine ⟨below, ?_⟩
    rw [getSocket_setSocket present]
    split
    next same =>
      rw [← same, found] at present
      exact present.symm
    · exact found
  | elsewhere _ different => exact ⟨below, getSocket_other found different⟩
  | joined _ different =>
    refine ⟨lt_succ_of_lt below, ?_⟩
    rw [getSocket_addSocket, nextId_setSocket, if_neg below.ne]
    exact getSocket_other found different

theorem Present.accept {next} (present : Present id listener this)
    (accepted : Accept id listener client this next) : Present id listener next := by
  obtain ⟨below, waiting, found⟩ := present
  obtain ⟨still, same⟩ := getSocket_accept accepted below found
  exact ⟨still, waiting, same⟩

theorem invariant {motive : UdsStreamScheme → Prop}
    (accepting : Accepting id listener queue before after) (present : Present id listener before)
    (initially : motive before)
    (dequeue : ∀ this rest, Present id listener this → motive this →
      motive (this.setSocket id { listener with awaiting := rest }))
    (accept : ∀ this client next, client ∈ queue → Present id listener this → motive this →
      Accept id listener client this next → motive next) : motive after := by
  induction accepting with
  | empty => exact dequeue _ _ present initially
  | stop accepted =>
    exact accept _ _ _ (by simp) present.dequeue (dequeue _ _ present initially) accepted
  | again accepted _ ih =>
    apply ih (present.dequeue.accept accepted)
    · exact accept _ _ _ (by simp) present.dequeue (dequeue _ _ present initially) accepted
    · intro this client next member
      exact accept this client next (List.mem_cons_of_mem _ member)

end Accepting

/-- What requests do to the tables, taken apart. -/
inductive Change : UdsStreamScheme → UdsStreamScheme → Prop where
  | refl {state} : Change state state
  | trans {first second third} : Change first second → Change second third → Change first third
  | root {state} : Change state state.schemeRoot
  | without {state id paths tokens} :
      Change state { state.without id with socketPaths := paths, socketTokens := tokens }
  | keep {state id socket changed paths tokens} : state.sockets.get? id = some socket →
      socket.SamePeer changed → changed.awaiting ⊆ socket.awaiting →
      Change state
        { state.setSocket id changed with socketPaths := paths, socketTokens := tokens }
  | enqueue {state id socket client} : state.sockets.get? id = some socket → client ≠ id →
      Change state (state.setSocket id (socket.enqueue client))
  | face {state id socket other listener} : state.sockets.get? id = some socket →
      state.sockets.get? other = some listener → other ≠ id →
      Change state (state.setSocket id (socket.connectTo other))
  | add {state new} : new.primaryId = state.nextId → new.awaiting = [] →
      (∀ connection, new.connection = some connection →
        ∃ socket, state.sockets.get? connection.peer = some socket) →
      Change state (state.addSocket new)
  | join {state id client listener connection} : state.getSocket id = some client →
      Change state ((state.setSocket id (client.acceptedBy connection state.nextId)).addSocket
        (state.acceptedSocket listener id connection.packets))

theorem Change.wellFormed (change : Change before after) (wellFormed : WellFormed before) :
    WellFormed after := by
  induction change with
  | refl => exact wellFormed
  | trans _ _ one two => exact two (one wellFormed)
  | root => exact wellFormed.schemeRoot
  | without => exact wellFormed.without.registries _ _
  | keep found same => exact (wellFormed.setSamePeer found same).registries _ _
  | enqueue found => exact wellFormed.setSamePeer found ⟨rfl, rfl⟩
  | face found registered =>
    refine wellFormed.setSocket found rfl ?_
    rintro _ ⟨rfl⟩
    exact (wellFormed.numbered registered).2
  | add number _ peer =>
    refine wellFormed.addSocket number fun connection held => ?_
    obtain ⟨_, present⟩ := peer connection held
    exact (wellFormed.numbered present).2
  | join found => exact wellFormed.join found rfl rfl rfl rfl

/-- A socket changes in something else than its peer and its queue. -/
theorem Change.edit {paths tokens} (found : this.getSocket id = some socket)
    (same : socket.SamePeer changed) (queue : changed.awaiting = socket.awaiting) : Change this
      { this.setSocket id changed with socketPaths := paths, socketTokens := tokens } :=
  .keep (get?_of_getSocket found) same (queue ▸ List.Subset.refl _)

theorem Accept.change (accepted : Accept id listener client before after) :
    Change before after := by
  cases accepted with
  | gone => exact .refl
  | busy found | elsewhere found => exact .edit found ⟨rfl, rfl⟩ rfl
  | joined found => exact .join found

theorem Accepting.change (accepting : Accepting id listener queue before after)
    (below : id < before.nextId)
    (found : before.getSocket id = some { listener with awaiting := queue }) :
    Change before after := by
  have dequeued : ∀ {this : UdsStreamScheme} {waiting rest : List Nat}, rest ⊆ waiting →
      this.getSocket id = some { listener with awaiting := waiting } →
      Change this (this.setSocket id { listener with awaiting := rest }) :=
    fun fewer found => .keep (get?_of_getSocket found) ⟨rfl, rfl⟩ fewer
  induction accepting with
  | empty => exact dequeued (refl _) found
  | stop accepted => exact (dequeued (List.subset_cons_self _ _) found).trans accepted.change
  | again accepted _ ih =>
    obtain ⟨below, found_⟩ := getSocket_accept accepted below (getSocket_setSocket_self found)
    exact ((dequeued (List.subset_cons_self _ _) found).trans accepted.change).trans
      (ih below found_)

theorem closeWaiting_change : Change this (closeWaiting queue this) := by
  induction queue generalizing this with
  | nil => exact .refl
  | cons client rest ih =>
    unfold closeWaiting
    split
    next socket found =>
      have closed : Change this (this.setSocket client { socket with state := .closed }) :=
        .edit found ⟨rfl, rfl⟩ rfl
      exact closed.trans ih
    · exact ih

theorem Closes.change (closes : Closes before id after) : Change before after := by
  cases closes with
  | absent | alone => exact .without
  | listener => exact Change.without.trans closeWaiting_change
  | @parted socket connection remote other found _ _ present back =>
    have faced : Change (before.without id) ((before.without id).setConnection connection.peer
        remote { other with isPeerShutdown := true }) :=
      .edit present ⟨rfl, by rw [back]; rfl⟩ rfl
    have different : id ≠ connection.peer := by
      intro same
      rw [← same, getSocket_without, if_pos rfl] at present
      cases present
    have kept : ((before.without id).setConnection connection.peer remote
        { other with isPeerShutdown := true }).sockets.get? id = some socket := by
      change (before.sockets.insert connection.peer _).get? id = some socket
      rw [get?_insert_of_ne _ different]
      exact get?_of_getSocket found
    exact (Change.without.trans faced).trans (.keep kept ⟨rfl, rfl⟩ (refl _))
  | unconnected found =>
    have kept := get?_of_getSocket found
    exact Change.without.trans (.keep kept ⟨rfl, rfl⟩ (refl _))

section

variable (starts : Starts id socket before after)

include starts

theorem Starts.change (found : before.getSocket id = some socket) : Change before after := by
  cases starts with
  | unnamed | named => exact .edit found ⟨rfl, rfl⟩ rfl

theorem Starts.found (found : before.getSocket id = some socket) (wellFormed : WellFormed before) :
    id < after.nextId ∧ after.getSocket id = some { socket with state := .listening } := by
  have below := wellFormed.lt_nextId found
  have listening : (before.setSocket id { socket with state := .listening }).getSocket id =
      some { socket with state := .listening } := getSocket_setSocket_self found
  cases starts with
  | unnamed | named => exact ⟨below, listening⟩

theorem Starts.present
    (found : before.getSocket id = some socket) (wellFormed : WellFormed before) :
    Accepting.Present id { socket with state := .listening } after := by
  obtain ⟨below, listening⟩ := starts.found found wellFormed
  exact ⟨below, socket.awaiting, listening⟩

end

theorem Effect.change {event output}
    (effect : Effect before event output after) (wellFormed : WellFormed before) :
    Change before after := by
  -- A connection that changes keeps its peer.
  have setConnection : ∀ {id socket connection changed}, before.getSocket id = some socket →
      socket.connection = some connection → changed.peer = connection.peer →
      Change before (before.setConnection id socket changed) := by
    intro id socket connection changed found held same
    exact .edit found ⟨rfl, by rw [held]; simp [same]⟩ rfl
  cases effect with
  | refused | nothing | eof => exact .refl
  | root => exact .root
  | opened => exact .add rfl rfl nofun
  | bound found | unbound found | option found | flags found
  | finished found => exact .edit found ⟨rfl, rfl⟩ rfl
  | connecting found registered different =>
    rw [wellFormed.number found, (wellFormed.numbered registered).1]
    refine (Change.enqueue registered different.symm).trans
      (.face ?_ (get?_insert_self _ _ _) different)
    exact get?_of_getSocket (getSocket_other found different)
  | sent _ _ _ found _ held | passed _ _ _ found _ held | parked found held | read found _ held
  | obtained found _ held => exact setConnection found held rfl
  | received found _ held _ _ serialized =>
    refine setConnection found held ?_
    rw [of_serializeToMsgstream serialized]
  | startRefused found _ starts => exact starts.change found
  | started found _ starts accepting =>
    obtain ⟨below, listening⟩ := starts.found found wellFormed
    exact (starts.change found).trans (accepting.change below listening)
  | listened found _ accepting => exact accepting.change (wellFormed.lt_nextId found) found
  | pairRefused found => exact .enqueue (get?_of_getSocket found) (wellFormed.lt_nextId found).ne'
  | @paired id _ socket found =>
    have queued := Change.enqueue (get?_of_getSocket found) (wellFormed.lt_nextId found).ne'
    refine queued.trans (.add rfl rfl ?_)
    rintro _ ⟨rfl⟩
    rw [wellFormed.number found]
    exact ⟨_, get?_insert_self _ _ _⟩
  | closed closes => exact closes.change

theorem reachable_wellFormed {allowed state}
    (reached : stream.ReachableWhile allowed state) : WellFormed state := by
  refine reached.invariant .start ?_
  intro before event after output _ wellFormed _ stepped
  exact ((step_effect stepped).change wellFormed).wellFormed wellFormed

end EosBase.Uds.Stream
