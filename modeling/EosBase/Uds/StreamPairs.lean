import EosBase.Uds.StreamMoves

/-!
# Stream connections are symmetric

In an orderly run the peer of a connected socket is closed or faces it, and only
an accept connects sockets: the client and the socket that is made for it.
-/

namespace EosBase.Uds.Stream

open Redox UdsStreamScheme Option Connection Socket State

/-- The peer of an open socket that is accepted or established. -/
def linked (this : UdsStreamScheme) (id : Nat) : Option Nat :=
  match this.getSocket id with
  | some socket =>
    if socket.state.connected then socket.connection.map peer else none
  | none => none

def Symmetric (this : UdsStreamScheme) : Prop :=
  ∀ id peer, linked this id = some peer →
    this.handles.get? peer = none ∨ linked this peer = some id

variable {this : UdsStreamScheme} {id : Nat}

theorem linked_iff {peer} : linked this id = some peer ↔
      ∃ connection, (net this).ends id = some (.linked connection) ∧ connection.peer = peer := by
  constructor
  · intro faces
    unfold linked at faces
    split at faces
    next socket found =>
      split at faces
      next connected =>
        obtain ⟨connection, held, same⟩ := map_eq_some_iff.mp faces
        refine ⟨connection, ?_, same⟩
        rw [ends_of_getSocket found, toEnd_linked connected held]
      · cases faces
    · cases faces
  · rintro ⟨connection, present, rfl⟩
    obtain ⟨socket, found, same⟩ := getSocket_of_ends present
    obtain ⟨connected, held⟩ := of_toEnd_linked same
    unfold linked
    rw [found]
    dsimp only
    rw [if_pos connected, held]
    rfl

theorem ends_start {seen} : (net stream.start).ends id ≠ some seen := by
  intro found
  obtain ⟨_, present, _⟩ := getSocket_of_ends found
  cases get?_of_getSocket present

theorem sound_start : Net.Sound (net stream.start) where
  below found := absurd found ends_start
  peer found := absurd found ends_start
  facing found := absurd found ends_start
  clean found := absurd found ends_start
  ended found := absurd found ends_start

theorem orderly_sound {allowed} (implied : ∀ this event, allowed this event → Orderly this event)
    {state}
    (reached : stream.ReachableWhile allowed state) : Net.Sound (net state) := by
  apply reached.invariant (motive := fun state => Net.Sound (net state)) sound_start
  intro before event after output earlier sound permitted stepped
  have move := (step_effect stepped).move (reachable_wellFormed earlier) sound
    (implied before event permitted)
  exact sound.move move

variable {after before : UdsStreamScheme}

theorem orderly_move {event allowed output}
    (implied : ∀ this event, allowed this event → Orderly this event) {history}
    (run : stream.Run allowed history before) (permitted : allowed before event)
    (stepped : stream.step before event = some (after, output)) :
    Net.Sound (net before) ∧ Move before event output (net after) := by
  have reached : stream.ReachableWhile allowed before := ⟨history, run⟩
  have sound := orderly_sound implied reached
  exact ⟨sound, (step_effect stepped).move (reachable_wellFormed reached) sound
    (implied before event permitted)⟩

theorem symmetric_of_sound (wellFormed : WellFormed this)
    (sound : Net.Sound (net this)) : Symmetric this := by
  intro id peer faces
  obtain ⟨connection, present, rfl⟩ := linked_iff.mp faces
  cases facing : (net this).ends connection.peer with
  | none =>
    refine .inl ?_
    obtain ⟨socket, found, same⟩ := getSocket_of_ends present
    have held := (of_toEnd_linked same).2
    exact wellFormed.peer_closed found held (map_eq_none_iff.mp facing)
  | some seen =>
    obtain ⟨other, rfl, back⟩ := sound.facing present facing
    exact .inr (linked_iff.mpr ⟨other, facing, back⟩)

def Connected (this : UdsStreamScheme) (id : Nat) : Prop :=
  ∃ socket, this.getSocket id = some socket ∧ socket.state.connected = true

/-- A client that waited for a listener was accepted as a new socket. -/
structure Joined (before after : UdsStreamScheme) (listener client new : Nat) : Prop where
  queued : ∃ socket, before.getSocket listener = some socket ∧ client ∈ socket.awaiting
  waited : ∃ waiting, before.getSocket client = some waiting ∧ waiting.state = .connecting ∧
    waiting.connection.map peer = some listener
  fresh : before.nextId ≤ new
  faces : linked after client = some new
  faced : linked after new = some client

variable {number : Nat} {socket changed : Socket}

theorem Connected.setSocket (connected : Connected (this.setSocket number changed) id)
    (found : this.sockets.get? number = some socket)
    (state : changed.state.connected = true → socket.state.connected = true) :
    Connected this id := by
  obtain ⟨actual, present, now⟩ := connected
  by_cases here : id = number
  · subst here
    have held := handle_of_getSocket present
    rw [handles_setSocket] at held
    have before := getSocket_of_held held found
    cases (getSocket_setSocket_self before).symm.trans present
    exact ⟨socket, before, state now⟩
  · rw [getSocket_setSocket_ne here] at present
    exact ⟨actual, present, now⟩

theorem Connected.addSocket {new} (connected : Connected (this.addSocket new) id)
    (state : new.state.connected = false) : Connected this id := by
  obtain ⟨actual, present, now⟩ := connected
  rw [getSocket_addSocket] at present
  split at present
  · cases present
    rw [state] at now
    cases now
  · exact ⟨actual, present, now⟩

theorem Connected.without (connected : Connected (this.without number) id) : Connected this id := by
  obtain ⟨actual, present, now⟩ := connected
  rw [getSocket_without] at present
  split at present
  · cases present
  · exact ⟨actual, present, now⟩

variable {queue : List Nat}

theorem closeWaiting_connected
    (connected : Connected (closeWaiting queue this) id) : Connected this id := by
  obtain ⟨actual, present, now⟩ := connected
  rw [getSocket_closeWaiting] at present
  obtain ⟨socket, found, rfl⟩ := map_eq_some_iff.mp present
  refine ⟨socket, found, ?_⟩
  split at now
  · cases now
  · exact now

theorem Closes.connected (closes : Closes before number after) (connected : Connected after id) :
    Connected before id := by
  have closed : (before.without number).handles.get? number = none := Table.get?_erase_self _ _
  -- The socket that is closed is not open any more, whatever is written to it.
  have finished : ∀ {this socket}, this.handles.get? number = none →
      Connected (this.finishClosure number socket) id → Connected this id := by
    rintro this socket gone ⟨actual, present, now⟩
    have still : (this.forget socket).handles.get? number = none := gone
    refine ⟨actual, ?_, now⟩
    exact (getSocket_setSocket_closed still).symm.trans present
  cases closes with
  | absent | alone => exact connected.without
  | listener =>
    have rest := closeWaiting_connected connected
    exact rest.without
  | @parted _ connection remote other _ _ _ present =>
    have still : ((before.without number).setConnection connection.peer remote
        { other with isPeerShutdown := true }).handles.get? number = none := closed
    have rest := finished still connected
    exact (rest.setSocket (get?_of_getSocket present) (fun state => state)).without
  | unconnected => exact (finished closed connected).without

/-- A client of a queue and a new socket that face each other by now. -/
structure Pair (before : UdsStreamScheme) (id : Nat) (queue : List Nat)
    (this : UdsStreamScheme) (client new : Nat) : Prop where
  queued : client ∈ queue
  waited : ∃ waiting, before.getSocket client = some waiting ∧ waiting.state = .connecting ∧
    waiting.connection.map peer = some id
  fresh : before.nextId ≤ new
  faces : linked this client = some new
  faced : linked this new = some client

structure Progress (before : UdsStreamScheme) (id : Nat) (queue : List Nat)
    (this : UdsStreamScheme) : Prop where
  wellFormed : WellFormed this
  expected : Expected this id queue
  next : before.nextId ≤ this.nextId
  /-- A client that still waits is as it was. -/
  waiting : ∀ {client waiting}, this.getSocket client = some waiting →
    waiting.state = .connecting → before.getSocket client = some waiting
  connected : ∀ {number}, Connected this number → Connected before number ∨
    ∃ client new, Pair before id queue this client new ∧ (number = client ∨ number = new)

theorem linked_of_net {one two} (same : net one = net two) : linked one id = linked two id := by
  apply ext
  intro peer
  rw [linked_iff, linked_iff, same]

theorem Pair.keep {next client new} (pair : Pair before id queue this client new)
    (same : ∀ number peer, linked this number = some peer → linked next number = some peer) :
    Pair before id queue next client new :=
  { pair with
    faces := same _ _ pair.faces
    faced := same _ _ pair.faced }

variable {listener : Socket}

namespace Progress

variable {this next : UdsStreamScheme} {id client : Nat}

theorem set (progress : Progress before id queue this)
    (found : this.getSocket client = some socket) (number : changed.primaryId = socket.primaryId)
    (state : changed.state.connected = socket.state.connected)
    (connection : changed.connection = socket.connection)
    (settled : changed.state = .connecting → changed = socket) :
    Progress before id queue (this.setSocket client changed) where
  wellFormed := progress.wellFormed.setSamePeer (get?_of_getSocket found)
    ⟨number, by rw [connection]⟩
  expected := progress.expected.setSocket found fun waits => ⟨settled waits ▸ waits, connection⟩
  next := progress.next
  waiting {other waiting} present waits := by
    rw [getSocket_setSocket found] at present
    split at present
    next here =>
      cases present
      exact progress.waiting (here ▸ settled waits ▸ found) waits
    · exact progress.waiting present waits
  connected {number} now := by
    have same : net (this.setSocket client changed) = net this :=
      net_setSame (get?_of_getSocket found) state connection
    have earlier : Connected this number :=
      now.setSocket (get?_of_getSocket found) (fun connected => state ▸ connected)
    rcases progress.connected earlier with already | ⟨client, new, pair, which⟩
    · exact .inl already
    · refine .inr ⟨client, new, pair.keep ?_, which⟩
      intro other peer faces
      exact (linked_of_net same).trans faces

theorem accept (progress : Progress before id queue this)
    (accepted : Accept id listener client this next) (number : listener.primaryId = id)
    (member : client ∈ queue) : Progress before id queue next := by
  have wellFormed := accepted.change.wellFormed progress.wellFormed
  have expected := (accepted.joins number member progress.expected).2
  cases accepted with
  | gone => exact progress
  | busy found => exact progress.set found rfl rfl rfl (fun _ => rfl)
  | elsewhere found _ connecting other =>
    rw [number] at other
    exact absurd (progress.expected client member _ found connecting) other
  | @joined waiting connection found _ connecting held facing =>
    have below := progress.wellFormed.lt_nextId found
    -- Whoever is linked is neither the client nor the new socket.
    have others : ∀ {other}, other ≠ this.nextId → other ≠ client →
        ((this.setSocket client (waiting.acceptedBy connection this.nextId)).addSocket
          (this.acceptedSocket listener client connection.packets)).getSocket other =
          this.getSocket other := by
      intro other notNew notClient
      rw [getSocket_join found, if_neg notNew, if_neg notClient]
    have keeps : ∀ other peer, linked this other = some peer →
        linked ((this.setSocket client (waiting.acceptedBy connection this.nextId)).addSocket
          (this.acceptedSocket listener client connection.packets)) other = some peer := by
      intro other peer faces
      have notNew : other ≠ this.nextId := by
        rintro rfl
        simp [linked, progress.wellFormed.unused le_rfl] at faces
      have notClient : other ≠ client := by
        rintro rfl
        simp [linked, found, connecting, State.connected] at faces
      unfold linked
      rw [others notNew notClient]
      exact faces
    have pair : Pair before id queue
        ((this.setSocket client (waiting.acceptedBy connection this.nextId)).addSocket
          (this.acceptedSocket listener client connection.packets)) client this.nextId := by
      refine ⟨member, ⟨waiting, progress.waiting found connecting, connecting, ?_⟩,
        progress.next, ?_, ?_⟩
      · exact progress.expected client member waiting found connecting
      · unfold linked
        rw [getSocket_join found, if_neg below.ne, if_pos rfl]
        rfl
      · unfold linked
        rw [getSocket_join found, if_pos rfl]
        rfl
    refine ⟨wellFormed, expected, Nat.le_succ_of_le progress.next, ?_, ?_⟩
    · intro other actual present waits
      rw [getSocket_join found] at present
      split at present
      · cases present
        cases waits
      split at present
      · cases present
        cases waits
      · exact progress.waiting present waits
    · rintro other ⟨actual, present, now⟩
      by_cases notNew : other = this.nextId
      · exact .inr ⟨client, this.nextId, pair, .inr notNew⟩
      by_cases notClient : other = client
      · exact .inr ⟨client, this.nextId, pair, .inl notClient⟩
      rw [others notNew notClient] at present
      rcases progress.connected ⟨actual, present, now⟩ with
        already | ⟨first, second, older, which⟩
      · exact .inl already
      · exact .inr ⟨first, second, older.keep keeps, which⟩

end Progress

theorem Accepting.progress (accepting : Accepting id listener queue this after)
    (present : Accepting.Present id listener this) (number : listener.primaryId = id)
    (listening : listener.state = .listening) (progress : Progress before id queue this) :
    Progress before id queue after := by
  apply accepting.invariant present progress
  · rintro this rest ⟨_, waiting, found⟩ progress
    exact progress.set found rfl rfl rfl (fun waits => absurd waits (by simp [listening]))
  · intro this client next member _ progress accepted
    exact progress.accept accepted number member

theorem Starts.progress {between}
    (starts : Starts id socket before between) (found : before.getSocket id = some socket)
    (state : socket.state = .unbound ∨ socket.state = .bound)
    (progress : Progress before id queue before) : Progress before id queue between := by
  have unconnected : listening.connected = socket.state.connected := by
    rcases state with unbound | bound
    · rw [unbound]
      rfl
    · rw [bound]
      rfl
  have listening : Progress before id queue
      (before.setSocket id { socket with state := .listening }) :=
    progress.set found rfl unconnected rfl nofun
  cases starts with
  | unnamed => exact listening
  | named =>
    refine ⟨listening.wellFormed.registries _ _, listening.expected, listening.next,
      listening.waiting, ?_⟩
    intro number now
    rcases listening.connected now with already | ⟨client, new, pair, which⟩
    · exact .inl already
    · exact .inr ⟨client, new, pair.keep (fun _ _ faces => faces), which⟩

theorem Effect.connected {output event} (effect : Effect before event output after)
    (wellFormed : WellFormed before) (orderly : Orderly before event) (now : Connected after id) :
    Connected before id ∨ ∃ listener posted client new, event = .dupListen listener posted ∧
      Joined before after listener client new ∧ (id = client ∨ id = new) := by
  have kept : ∀ {number socket changed}, before.getSocket number = some socket →
      Connected (before.setSocket number changed) id →
      (changed.state.connected = true → socket.state.connected = true) →
      Connected before id :=
    fun found now state => now.setSocket (get?_of_getSocket found) state
  have first : ∀ {number socket}, before.getSocket number = some socket →
      (Expected before number socket.awaiting) →
      Progress before number socket.awaiting before := fun _ expected =>
    ⟨wellFormed, expected, le_rfl, fun present _ => present, fun now => .inl now⟩
  have joined : ∀ {number socket posted}, before.getSocket number = some socket →
      event = .dupListen number posted → Progress before number socket.awaiting after →
      Connected before id ∨ ∃ listener posted client new, event = .dupListen listener posted ∧
        Joined before after listener client new ∧ (id = client ∨ id = new) := by
    intro number socket posted found asked progress
    rcases progress.connected now with already | ⟨client, new, pair, which⟩
    · exact .inl already
    · exact .inr ⟨number, posted, client, new, asked,
        ⟨⟨socket, found, pair.queued⟩, pair.waited, pair.fresh, pair.faces, pair.faced⟩, which⟩
  cases effect with
  | refused | nothing | eof => exact .inl now
  | root =>
    obtain ⟨socket, present, state⟩ := now
    exact .inl ⟨socket, wellFormed.getSocket_schemeRoot.symm.trans present, state⟩
  | opened => exact .inl (now.addSocket rfl)
  | bound found | unbound found => exact .inl (kept found now (by simp [connected]))
  | option found | flags found | parked found | read found | received found | obtained found
  | pairRefused found | sent _ _ _ found
  | passed _ _ _ found => exact .inl (kept found now (fun state => state))
  | @connecting number _ _ listenerId client listener _ found registered different =>
    have queued := now.setSocket (get?_of_getSocket (getSocket_other found different))
      (by simp [connectTo, connected])
    exact .inl (queued.setSocket registered (fun state => state))
  | finished found accepted => exact .inl (kept found now (by simp [accepted, connected]))
  | startRefused found _ starts =>
    cases starts <;> exact .inl (kept found now (by simp [connected]))
  | started found state starts accepting =>
    have progress := starts.progress found state (first found (orderly.expected found))
    have number := wellFormed.number found
    exact joined found rfl
      (accepting.progress (starts.present found wellFormed) number rfl progress)
  | listened found listening accepting =>
    exact joined found rfl (accepting.progress ⟨wellFormed.lt_nextId found, _, found⟩
      (wellFormed.number found) listening (first found (orderly.expected found)))
  | paired found =>
    have queued := now.addSocket rfl
    exact .inl (kept found queued (fun state => state))
  | closed closes => exact .inl (closes.connected now)

/-- In an orderly run connections are symmetric, and whoever becomes connected was
accepted or made by an accept. -/
theorem stream_pairs {history : List (Transition UdsStreamScheme Event (Result Reply))}
    {state : UdsStreamScheme} (run : stream.Run Orderly history state) :
    Symmetric state ∧ ∀ transition ∈ history, ∀ id,
      ¬ Connected transition.before id → Connected transition.after id →
      ∃ listener posted client new, transition.event = .dupListen listener posted ∧
        Joined transition.before transition.after listener client new ∧
        (id = client ∨ id = new) := by
  have reached : stream.ReachableWhile Orderly state := ⟨history, run⟩
  have sound := orderly_sound (fun _ _ orderly => orderly) reached
  refine ⟨symmetric_of_sound (reachable_wellFormed reached) sound, ?_⟩
  intro transition member id unconnected now
  obtain ⟨earlier, later, same⟩ := List.append_of_mem member
  obtain ⟨before, stepped, orderly, -⟩ := run.split same
  have wellFormed := reachable_wellFormed ⟨earlier, before⟩
  exact ((step_effect stepped).connected wellFormed orderly now).resolve_left unconnected

/-- Two listeners, 1 and 2, and a client 3 that connects to the first. -/
def connectFirst : List Event :=
  [.schemeRoot, .openat 0 [] 0x02000000, .openat 0 [] 0x02000000, .openat 0 [] 0x02000000,
    .bind 1 (some [0x61]) 7, .bind 2 (some [0x62]) 8, .connect 3 (leBytes 8 7) none]

/-- The client is accepted as socket 4. -/
theorem stream_pairs_accept :
    ∃ history state, stream.Run Orderly history state ∧ linked state 3 = some 4 ∧
      Symmetric state ∧ ∀ transition ∈ history, ∀ id,
        ¬ Connected transition.before id → Connected transition.after id →
        ∃ listener posted client new, transition.event = .dupListen listener posted ∧
          Joined transition.before transition.after listener client new ∧
          (id = client ∨ id = new) := by
  have run := stream.run_replay Orderly (connectFirst ++ [.dupListen 1 (fun _ => none)]) (by
    decide +kernel)
  exact ⟨_, _, run, rfl, stream_pairs run⟩

/-- The client connects to the second listener as well, and the first one accepts:
the client is connected to the second one, which still listens. -/
theorem stale_accept_asymmetric : ∃ state, stream.Reachable state ∧ linked state 3 = some 2 ∧
      state.handles.get? 2 = some .socket ∧ linked state 2 = none := by
  have reached := stream.reachable_replay (connectFirst ++
    [.connect 3 (leBytes 8 8) none, .dupListen 1 (fun _ => none)]) (by decide +kernel)
  exact ⟨_, reached, rfl, rfl, rfl⟩

def Waits (listener : Nat) (client : Socket) : Prop :=
  client.state = .connecting ∧ client.connection.map peer = some listener

/-- The clients that wait for a listener are closed, and no other socket changes. -/
def ClosesOwn (before : UdsStreamScheme) (listener : Nat) (after : UdsStreamScheme) : Prop :=
  ∀ id ≠ listener, after.getSocket id = before.getSocket id ∨
    ∃ client, before.getSocket id = some client ∧ Waits listener client ∧
      after.getSocket id = some { client with state := .closed }

/-- The queue of a listener is not purged, so closing it is confined to its own clients
only if all that are in its queue still wait for it or were closed before. -/
theorem listener_closes_own_iff {this : UdsStreamScheme} {id : Nat} {socket : Socket}
    (found : this.getSocket id = some socket) (listening : socket.state = .listening) :
    (∃ after, this.onClose id = some after ∧ ClosesOwn this id after) ↔
      ∀ client ∈ socket.awaiting, client ≠ id → ∀ waiting,
        this.getSocket client = some waiting → waiting.state = .closed ∨ Waits id waiting := by
  have returns : this.onClose id = some ((this.without id).handleListeningClosure socket) := by
    rw [onClose, found]
    exact (if_neg not_mem_closureBorrows).trans (if_pos listening)
  have closes : ∀ other ≠ id, ((this.without id).handleListeningClosure socket).getSocket other =
      (this.getSocket other).map fun client =>
        if other ∈ socket.awaiting then { client with state := .closed } else client := by
    intro other different
    have still : ((this.without id).forget socket).getSocket other = this.getSocket other :=
      getSocket_without.trans (if_neg different)
    rw [← still, ← getSocket_closeWaiting, handleListeningClosure]
  rw [returns]
  simp only [some.injEq, exists_eq_left']
  constructor
  · intro own client member different waiting present
    rcases own client different with same | ⟨actual, again, waits, _⟩
    · rw [closes client different, present, map_some, if_pos member, some.injEq] at same
      exact .inl (congrArg state same).symm
    · cases present.symm.trans again
      exact .inr waits
  · intro waiting other different
    rw [closes other different]
    cases present : this.getSocket other with
    | none => exact .inl rfl
    | some client =>
      by_cases member : other ∈ socket.awaiting
      · rw [map_some, if_pos member]
        rcases waiting other member different client present with closed | waits
        · exact .inl (by rw [← closed])
        · exact .inr ⟨client, rfl, waits, rfl⟩
      · exact .inl (by rw [map_some, if_neg member])

theorem listener_closes_own_waiting : ∃ state, stream.Reachable state ∧
    ∃ after, state.onClose 1 = some after ∧ ClosesOwn state 1 after := by
  refine ⟨_, stream.reachable_replay connectFirst (by decide +kernel),
    (listener_closes_own_iff rfl rfl).mpr ?_⟩
  rintro client member - waiting present
  cases List.mem_singleton.mp member
  cases present
  exact .inr ⟨rfl, rfl⟩

/-- The client was accepted by the second listener, and is closed with the first. -/
theorem listener_closes_accepted : ∃ state after, stream.Reachable state ∧
    linked state 3 = some 4 ∧ state.onClose 1 = some after ∧ ¬ ClosesOwn state 1 after := by
  refine ⟨_, _, stream.reachable_replay (connectFirst ++ [.connect 3 (leBytes 8 8) none,
    .dupListen 2 (fun _ => none)]) (by decide +kernel), rfl, rfl, fun own => ?_⟩
  rcases own 3 (by decide) with same | ⟨client, present, ⟨connecting, _⟩, _⟩
  · cases congrArg (Option.map state) same
  · cases present
    cases connecting

end EosBase.Uds.Stream
