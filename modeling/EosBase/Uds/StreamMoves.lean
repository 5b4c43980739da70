import EosBase.Uds.StreamNet

/-!
# What requests do to the ends of connections

The sockets of a state are seen as the ends of a `Net`.  In an orderly run every
request is one of the moves below, so that linked ends always face each other.

A client may be queued at a listener that it no longer waits for, because it has
connected to another one since.  A request is orderly when it does not come upon
such a client.
-/

namespace EosBase.Uds.Stream

open Redox UdsStreamScheme Socket Option Net

def Socket.toEnd (socket : Socket) : End :=
  match socket.state.connected, socket.connection with
  | true, some connection => .linked connection
  | _, connection => .idle connection

def net (this : UdsStreamScheme) : Net where
  ends id := (this.getSocket id).map toEnd
  next := this.nextId

variable {socket : Socket}

theorem Socket.toEnd_idle (unconnected : socket.state.connected = false) :
    socket.toEnd = .idle socket.connection := by
  unfold toEnd
  rw [unconnected]

variable {connection : Connection}

theorem Socket.toEnd_linked (connected : socket.state.connected = true)
    (held : socket.connection = some connection) : socket.toEnd = .linked connection := by
  unfold toEnd
  rw [connected, held]

theorem Socket.of_toEnd_linked (linked : socket.toEnd = .linked connection) :
    socket.state.connected = true ∧ socket.connection = some connection := by
  unfold toEnd at linked
  split at linked
  next connected held =>
    cases linked
    exact ⟨connected, held⟩
  · cases linked

theorem Socket.of_toEnd_idle (idle : socket.toEnd = .idle (some connection)) :
    socket.state.connected = false ∧ socket.connection = some connection := by
  cases connected : socket.state.connected with
  | false =>
    rw [toEnd_idle connected] at idle
    exact ⟨rfl, End.idle.inj idle⟩
  | true =>
    unfold toEnd at idle
    rw [connected] at idle
    split at idle
    · cases idle
    next unlinked => exact absurd (End.idle.inj idle) (unlinked connection rfl)

variable {this : UdsStreamScheme} {changed : Socket}

section View

variable {id : Nat}

theorem ends_of_getSocket (found : this.getSocket id = some socket) :
    (net this).ends id = some socket.toEnd := by
  unfold net
  dsimp only
  rw [found]
  rfl

theorem idle_of_getSocket (found : this.getSocket id = some socket)
    (unconnected : socket.state.connected = false) :
    (net this).ends id = some (.idle socket.connection) := by
  rw [← toEnd_idle unconnected]
  exact ends_of_getSocket found

theorem net_ext {one two : Net} (ends : ∀ id, one.ends id = two.ends id)
    (next : one.next = two.next) : one = two := by
  cases one
  cases next
  cases funext ends
  rfl

theorem net_setSocket (found : this.getSocket id = some socket) :
    net (this.setSocket id changed) = (net this).set id changed.toEnd := by
  refine net_ext ?_ rfl
  intro other
  rw [ends_set]
  unfold net
  dsimp only
  rw [getSocket_setSocket found]
  split <;> rfl

theorem net_setSame (found : this.sockets.get? id = some socket)
    (state : changed.state.connected = socket.state.connected)
    (connection : changed.connection = socket.connection) :
    net (this.setSocket id changed) = net this := by
  refine net_ext ?_ rfl
  intro other
  unfold net
  dsimp only
  by_cases here : other = id
  · subst here
    by_cases held : this.handles.get? other = some .socket
    · have present := getSocket_of_held held found
      rw [getSocket_setSocket_self present, present, map_some, map_some]
      unfold toEnd
      rw [state, connection]
    unfold getSocket
    split
    next holds => exact absurd holds held
    · rfl
  · rw [getSocket_setSocket_ne here]

theorem net_addSocket : net (this.addSocket changed) = (net this).add changed.toEnd := by
  refine net_ext ?_ rfl
  intro other
  rw [ends_add]
  unfold net
  dsimp only
  rw [getSocket_addSocket]
  split <;> rfl

theorem net_without : net (this.without id) = (net this).drop id := by
  refine net_ext ?_ rfl
  intro other
  rw [ends_drop]
  unfold net
  dsimp only
  rw [getSocket_without]
  split <;> rfl

theorem net_setClosed (closed : this.handles.get? id = none) :
    net (this.setSocket id changed) = net this := by
  refine net_ext ?_ rfl
  intro other
  unfold net
  dsimp only
  rw [getSocket_setSocket_closed closed]

theorem net_finishClosure (closed : this.handles.get? id = none) :
    net (this.finishClosure id socket) = net this := by
  have still : (this.forget socket).handles.get? id = none := closed
  exact net_setClosed still

theorem getSocket_of_ends {seen} (found : (net this).ends id = some seen) :
    ∃ socket, this.getSocket id = some socket ∧ socket.toEnd = seen :=
  map_eq_some_iff.mp found

theorem net_schemeRoot (wellFormed : WellFormed this) :
    net this.schemeRoot = { net this with next := this.nextId + 1 } := by
  refine net_ext ?_ rfl
  intro other
  unfold net
  dsimp only
  rw [wellFormed.getSocket_schemeRoot]

end View

/-- A listener that accepts comes upon no client that connects to another one, and
one that is closed upon no client that is connected. -/
def Orderly (this : UdsStreamScheme) : Event → Prop
  | .dupListen id _ =>
    ((this.getSocket id).all fun listener => listener.awaiting.all fun client =>
      (this.getSocket client).all fun waiting =>
        waiting.state != .connecting ||
          waiting.connection.map Connection.peer == some id) = true
  | .close id =>
    ((this.getSocket id).all fun socket => socket.state != .listening ||
      socket.awaiting.all fun client =>
        (this.getSocket client).all fun waiting => !waiting.state.connected) = true
  | _ => True

instance (this : UdsStreamScheme) (event : Event) : Decidable (Orderly this event) := by
  unfold Orderly
  split <;> infer_instance

/-- The clients of a queue that are still connecting connect to its owner. -/
def Expected (this : UdsStreamScheme) (id : Nat) (queue : List Nat) : Prop :=
  ∀ client ∈ queue, ∀ waiting, this.getSocket client = some waiting →
    waiting.state = .connecting → waiting.connection.map Connection.peer = some id

theorem Orderly.expected {listener id posted} (orderly : Orderly this (.dupListen id posted))
    (found : this.getSocket id = some listener) : Expected this id listener.awaiting := by
  intro client member waiting present connecting
  simp only [Orderly, found, all_some, List.all_eq_true] at orderly
  have checked := orderly client member
  rw [present, all_some, connecting] at checked
  simpa using checked

theorem Orderly.unconnected {id} (orderly : Orderly this (.close id))
    (found : this.getSocket id = some socket) (listening : socket.state = .listening) :
    ∀ client ∈ socket.awaiting, ∀ waiting, this.getSocket client = some waiting →
      waiting.state.connected = false := by
  intro client member waiting present
  simp only [Orderly, found, all_some, listening, bne_self_eq_false, Bool.false_or,
    List.all_eq_true] at orderly
  have checked := orderly client member
  rw [present, all_some] at checked
  simpa using checked

variable {queue : List Nat}

theorem Expected.setSocket {id number} (expected : Expected this id queue)
    (found : this.getSocket number = some socket)
    (state : changed.state = .connecting → socket.state = .connecting ∧
      changed.connection = socket.connection) :
    Expected (this.setSocket number changed) id queue := by
  intro client member waiting present connecting
  rw [getSocket_setSocket found] at present
  split at present
  next same =>
    cases present
    obtain ⟨before, connection⟩ := state connecting
    rw [connection]
    exact expected client member socket (same ▸ found) before
  · exact expected client member waiting present connecting

theorem Expected.addSocket {id new} (expected : Expected this id queue)
    (state : new.state ≠ .connecting) : Expected (this.addSocket new) id queue := by
  intro client member waiting present connecting
  rw [getSocket_addSocket] at present
  split at present
  · cases present
    exact absurd connecting state
  · exact expected client member waiting present connecting

theorem Net.Joins.trans {first second third} (one : Net.Joins first second)
    (two : Net.Joins second third) : Net.Joins first third := by
  induction one with
  | refl => exact two
  | join found _ ih => exact .join found (ih two)

theorem Accept.joins {listener next id client}
    (accepted : Accept id listener client this next) (number : listener.primaryId = id)
    (member : client ∈ queue) (expected : Expected this id queue) :
    Net.Joins (net this) (net next) ∧ Expected next id queue := by
  cases accepted with
  | gone => exact ⟨.refl, expected⟩
  | busy found =>
    rw [net_setSame (get?_of_getSocket found) rfl rfl]
    exact ⟨.refl, expected.setSocket found (fun state => ⟨state, rfl⟩)⟩
  | elsewhere found _ connecting other =>
    rw [number] at other
    exact absurd (expected client member _ found connecting) other
  | @joined waiting connection found _ connecting held =>
    have idle : waiting.toEnd = .idle (some connection) := by
      rw [toEnd_idle (by simp [connecting, State.connected]), held]
    constructor
    · rw [net_addSocket, net_setSocket found]
      exact .join ((ends_of_getSocket found).trans (congrArg some idle)) .refl
    · apply Expected.addSocket
      · exact expected.setSocket found (by simp [acceptedBy])
      · simp [acceptedSocket, newSocket, new]

variable {before after : UdsStreamScheme}

theorem Accepting.joins {listener id} (accepting : Accepting id listener queue before after)
    (present : Accepting.Present id listener before) (number : listener.primaryId = id)
    (expected : Expected before id queue) : Net.Joins (net before) (net after) := by
  have both : Net.Joins (net before) (net after) ∧ Expected after id queue := by
    apply accepting.invariant present
    · exact ⟨.refl, expected⟩
    · rintro this rest ⟨_, waiting, found⟩ ⟨joins, expected⟩
      have same : net (this.setSocket id { listener with awaiting := rest }) = net this :=
        net_setSame (get?_of_getSocket found) rfl rfl
      rw [same]
      exact ⟨joins, expected.setSocket found (fun state => ⟨state, rfl⟩)⟩
    · rintro this client next member _ ⟨joins, expected⟩ accepted
      obtain ⟨more, still⟩ := accepted.joins number member expected
      exact ⟨joins.trans more, still⟩
  exact both.1

theorem net_closeWaiting
    (unconnected : ∀ client ∈ queue, ∀ waiting, this.getSocket client = some waiting →
      waiting.state.connected = false) : net (closeWaiting queue this) = net this := by
  induction queue generalizing this with
  | nil => rfl
  | cons client rest ih =>
    unfold closeWaiting
    split
    next waiting found =>
      have idle := unconnected client (by simp) waiting found
      have same : net (this.setSocket client { waiting with state := .closed }) = net this :=
        net_setSame (get?_of_getSocket found) idle.symm rfl
      rw [← same]
      apply ih
      intro other member actual present
      rw [getSocket_setSocket found] at present
      split at present
      · cases present
        rfl
      · exact unconnected other (by simp [member]) actual present
    · exact ih fun other member => unconnected other (by simp [member])

theorem Closes.part {id} (closes : Closes before id after) (sound : Net.Sound (net before))
    (orderly : Orderly before (.close id)) : net after = (net before).part id := by
  have closed : (before.without id).handles.get? id = none := Table.get?_erase_self _ _
  have dropped : ∀ {seen}, (net before).ends id = some seen →
      (∀ connection, seen = .linked connection → ∀ other,
        ((net before).drop id).ends connection.peer ≠ some (.linked other)) →
      (net before).part id = (net before).drop id := by
    intro seen found alone
    unfold Net.part
    rw [found]
    cases seen with
    | idle => rfl
    | linked connection =>
      dsimp only
      split
      next other facing => exact absurd facing (alone connection rfl other)
      · rfl
  cases closes with
  | absent missing =>
    have none : (net before).ends id = none := by
      unfold net
      dsimp only
      rw [missing]
      rfl
    rw [net_without]
    unfold part
    rw [none]
  | @listener socket found listening =>
    have idle : socket.toEnd = .idle socket.connection :=
      toEnd_idle (by simp [listening, State.connected])
    rw [dropped (ends_of_getSocket found) (by simp [idle]), ← net_without]
    apply net_closeWaiting
    intro client member waiting present
    have still : (before.without id).getSocket client = some waiting := present
    rw [getSocket_without] at still
    split at still
    · cases still
    · exact orderly.unconnected found listening client member waiting still
  | @alone socket found connected bare =>
    rw [dropped (ends_of_getSocket found) ?_, net_without]
    intro connection linked other facing
    rw [← net_without] at facing
    obtain ⟨remote, present, faced⟩ := getSocket_of_ends facing
    have held := (of_toEnd_linked linked).2
    have back := (of_toEnd_linked faced).2
    cases back.symm.trans (bare connection held remote present)
  | @parted socket connection remote other found connected held present back =>
    have linked := ends_of_getSocket found
    rw [toEnd_linked connected held] at linked
    have facing := ends_of_getSocket present
    rw [net_without] at facing
    -- The peer faces the closed socket, so it is linked.
    obtain ⟨_, same, _⟩ : ∃ link, remote.toEnd = .linked link ∧ link.peer = id := by
      apply sound.facing linked
      rw [ends_drop] at facing
      split at facing
      · cases facing
      · exact facing
    obtain ⟨open_, holds⟩ := of_toEnd_linked same
    cases back.symm.trans holds
    have still : ((before.without id).setConnection connection.peer remote
        { other with isPeerShutdown := true }).handles.get? id = none := closed
    rw [net_finishClosure still]
    unfold setConnection
    rw [net_setSocket present, net_without]
    have told : { remote with
        connection := some { other with isPeerShutdown := true } }.toEnd =
          .linked { other with isPeerShutdown := true } := toEnd_linked open_ rfl
    rw [told]
    unfold part
    rw [linked]
    dsimp only
    rw [facing, same]
  | @unconnected socket found _ unconnected =>
    rw [dropped (ends_of_getSocket found) (by simp [toEnd_idle unconnected]),
      net_finishClosure closed, net_without]

inductive Silent : Event → Option (Result Reply) → Prop where
  | refused {event error} : Silent event (some (.error error))
  | nothing {event reply} : reply.Empty → Silent event (some (.ok reply))
  | eof {id noWait stream} : Silent (.recvmsg id noWait stream) (some (writeEof stream))
  | numbered {event number} : Silent event (some (.ok (.thisScheme number)))
  | option {id option value length} :
      Silent (.setsockopt id option value) (some (.ok (.count length)))

inductive Move (this : UdsStreamScheme) : Event → Option (Result Reply) → Net → Prop where
  | idle {event output next} : Silent event output → this.nextId ≤ next →
      Move this event output { net this with next := next }
  | opened {event output connection} : Silent event output →
      connection = none ∨ (∃ peer, connection = some (.new peer)) →
      Move this event output ((net this).add (.idle connection))
  | restarted {id tokenBuf posted error client token listenerId} :
      this.getSocket id = some client → client.state.connected = false →
      readNum 8 tokenBuf = .ok token → this.socketTokens.get? token = some listenerId →
      (client.state = .connecting → client.connection.map Connection.peer ≠ some listenerId) →
      Move this (.connect id tokenBuf posted) (some (.error error))
        ((net this).set id (.idle (some (.new listenerId))))
  | sent {id event output own other packet} : (net this).ends id = some (.linked own) →
      (net this).ends own.peer = some (.linked other) → Sends id packet event output →
      Move this event output
        ((net this).set own.peer (.linked { other with packets := other.packets ++ [packet] }))
  | parked {id event output own packet} : (net this).ends id = some (.idle (some own)) →
      Sends id packet event output →
      Move this event output
        ((net this).set id (.idle (some { own with packets := own.packets ++ [packet] })))
  | passed {id newFds posted own other} : (net this).ends id = some (.linked own) →
      (net this).ends own.peer = some (.linked other) →
      Move this (.sendfd id (.ok newFds) posted)
        (some (told posted (.ok (.count newFds.length))))
        ((net this).set own.peer (.linked { other with fds := other.fds ++ newFds }))
  /-- An end that is not linked writes to one that is linked to another. -/
  | strayed {id event output own other packet} : (net this).ends id = some (.idle (some own)) →
      (net this).ends own.peer = some (.linked other) → Sends id packet event output →
      Move this event output
        ((net this).set own.peer (.linked { other with packets := other.packets ++ [packet] }))
  /-- Descriptors that go astray in the same way. -/
  | misdirected {id newFds posted own other} : (net this).ends id = some (.idle (some own)) →
      (net this).ends own.peer = some (.linked other) →
      Move this (.sendfd id (.ok newFds) posted)
        (some (told posted (.ok (.count newFds.length))))
        ((net this).set own.peer (.linked { other with fds := other.fds ++ newFds }))
  | read {id length flags own} : (net this).ends id = some (.linked own) →
      Move this (.read id length flags) (some (own.readInner length flags).2)
        ((net this).set id (.linked (own.readInner length flags).1))
  | received {id noWait stream own passcred nameLen iovSize cleared changed result} :
      (net this).ends id = some (.linked own) → own.packets ≠ [] →
      readMsghdrInfo stream = .ok (nameLen, iovSize, cleared) →
      own.serializeToMsgstream cleared nameLen iovSize passcred = some (changed, result) →
      Move this (.recvmsg id noWait stream) (some result) ((net this).set id (.linked changed))
  | obtained {id event output own taken rest} : (net this).ends id = some (.linked own) →
      own.fds = taken ++ rest → Obtains id taken event output →
      Move this event output ((net this).set id (.linked { own with fds := rest }))
  | joined {id posted output after} : Net.Joins (net this) after →
      Move this (.dupListen id posted) output after
  | parted {id} : Move this (.close id) none ((net this).part id)

theorem Net.Sound.move {event output after} (move : Move this event output after)
    (sound : Net.Sound (net this)) : Net.Sound after := by
  cases move with
  | idle _ more =>
    exact ⟨fun found => (sound.below found).trans_le more,
      fun found => (sound.peer found).trans_le more, sound.facing, sound.clean,
      sound.ended⟩
  | opened _ fresh =>
    apply sound.add
    rintro connection rfl
    rcases fresh with impossible | ⟨peer, same⟩
    · cases impossible
    · cases same
      exact ⟨rfl, rfl⟩
  | restarted found unconnected =>
    apply sound.idle (idle_of_getSocket found unconnected)
    rintro _ ⟨rfl⟩
    exact ⟨rfl, rfl⟩
  | sent _ found | passed _ found | strayed _ found | misdirected _ found | read found
  | obtained found => exact sound.relink found rfl rfl
  | parked found =>
    have clean := sound.clean found
    apply sound.idle found
    rintro _ ⟨rfl⟩
    exact clean
  | received found _ _ serialized =>
    have same := of_serializeToMsgstream serialized
    exact sound.relink found (by rw [same]) (by rw [same])
  | joined joins => exact sound.joins joins
  | parted => exact sound.part

theorem Starts.net_eq {id} (starts : Starts id socket before after)
    (found : before.getSocket id = some socket)
    (state : socket.state = .unbound ∨ socket.state = .bound) : net after = net before := by
  have same : net (before.setSocket id { socket with state := .listening }) = net before := by
    refine net_setSame (get?_of_getSocket found) ?_ rfl
    rcases state with unbound | bound
    · rw [unbound]
      rfl
    · rw [bound]
      rfl
  cases starts with
  | unnamed | named => exact same

theorem Starts.expected {id} (starts : Starts id socket before after)
    (found : before.getSocket id = some socket)
    (expected : Expected before id socket.awaiting) : Expected after id socket.awaiting := by
  have changed : Expected (before.setSocket id { socket with state := .listening }) id
      socket.awaiting := expected.setSocket found (by simp)
  cases starts with
  | unnamed | named => exact changed

theorem Effect.move {event output} (effect : Effect before event output after)
    (wellFormed : WellFormed before)
    (sound : Net.Sound (net before))
    (orderly : Orderly before event) : Move before event output (net after) := by
  have stays : ∀ {changed}, Silent event output → net changed = net before →
      Move before event output (net changed) := by
    intro changed silent same
    rw [same]
    exact .idle silent le_rfl
  -- A socket changes in something else than its connection.
  have kept : ∀ {id socket changed}, before.getSocket id = some socket →
      changed.state.connected = socket.state.connected → changed.connection = socket.connection →
      Silent event output → Move before event output (net (before.setSocket id changed)) := by
    intro id socket changed found state connection silent
    exact stays silent (net_setSame (get?_of_getSocket found) state connection)
  -- The connection of a linked socket changes.
  have linked : ∀ {id socket connection}, before.getSocket id = some socket →
      socket.state.connected = true → socket.connection = some connection →
      (net before).ends id = some (.linked connection) ∧
      ∀ changed, net (before.setConnection id socket changed) =
        (net before).set id (.linked changed) := by
    intro id socket connection found connected held
    refine ⟨(ends_of_getSocket found).trans (congrArg some (toEnd_linked connected held)), ?_⟩
    intro changed
    unfold setConnection
    have shown : { socket with connection := some changed }.toEnd = .linked changed :=
      toEnd_linked connected rfl
    rw [net_setSocket found, shown]
  -- The sender of a packet is linked to its receiver, or not linked at all.
  have sender : ∀ {id socket own}, before.getSocket id = some socket →
      socket.connection = some own →
      (net before).ends id = some (.linked own) ∨
        (net before).ends id = some (.idle (some own)) := by
    intro id socket own found held
    rw [ends_of_getSocket found]
    cases connected : socket.state.connected with
    | true => exact .inl (congrArg some (toEnd_linked connected held))
    | false =>
      rw [toEnd_idle connected, held]
      exact .inr rfl
  cases effect with
  | refused => exact stays .refused rfl
  | nothing empty => exact stays (.nothing empty) rfl
  | eof => exact stays .eof rfl
  | root =>
    rw [net_schemeRoot wellFormed]
    exact .idle .numbered (Nat.le_succ _)
  | opened =>
    rw [net_addSocket]
    exact .opened .numbered (.inl rfl)
  | bound found state | unbound found state | finished found state =>
    refine kept found ?_ rfl (.nothing .count)
    rw [state]
    rfl
  | option found => exact kept found rfl rfl .option
  | flags found => exact kept found rfl rfl (.nothing .count)
  | @connecting id _ _ listenerId client listener _ found registered different unconnected named
      elsewhere =>
      obtain ⟨token, read, issued⟩ := named
      have number := (wellFormed.numbered registered).1
      have queued : net (before.setSocket listenerId (listener.enqueue client.primaryId)) =
          net before := net_setSame registered rfl rfl
      have shown : (client.connectTo listener.primaryId).toEnd =
          .idle (some (.new listener.primaryId)) := rfl
      rw [net_setSocket (getSocket_other found different), queued, shown, number]
      exact .restarted found unconnected read issued (number ▸ elsewhere)
  | sent found held _ facing connected back sends =>
    obtain ⟨present, changes⟩ := linked facing connected back
    change Move before event output (net (before.setConnection _ _ _))
    rw [changes]
    rcases sender found held with own | idle
    · exact .sent own present sends
    · exact .strayed idle present sends
  | @parked id buf cred posted sender connection receiver found held _ facing listening full =>
    have waits := idle_of_getSocket facing (by simp [listening, State.connected])
    -- A linked sender would face a linked receiver.
    cases connected : sender.state.connected with
    | true =>
      have own := (linked found connected held).1
      obtain ⟨_, impossible, _⟩ := sound.facing own waits
      cases impossible
    | false =>
      have idle := idle_of_getSocket found connected
      rw [held] at idle
      unfold push
      rw [net_setSocket found]
      have shown : ∀ changed, { sender with connection := changed }.toEnd = .idle changed :=
        fun changed => toEnd_idle connected
      rw [shown]
      exact .parked idle (.write full)
  | passed found held _ facing connected back =>
    obtain ⟨present, changes⟩ := linked facing connected back
    rw [changes]
    rcases sender found held with own | idle
    · exact .passed own present
    · exact .misdirected idle present
  | read found connected held =>
    obtain ⟨present, changes⟩ := linked found connected held
    rw [changes]
    exact .read present
  | received found connected held waiting prepared serialized =>
    obtain ⟨present, changes⟩ := linked found connected held
    rw [changes]
    exact .received present waiting prepared serialized
  | obtained found connected held queue obtains =>
    obtain ⟨present, changes⟩ := linked found connected held
    rw [changes]
    exact .obtained present queue obtains
  | startRefused found state starts => exact stays .refused (starts.net_eq found state)
  | started found state starts accepting =>
    have expected := starts.expected found (orderly.expected found)
    have number := wellFormed.number found
    have joins := accepting.joins (starts.present found wellFormed) number expected
    rw [starts.net_eq found state] at joins
    exact .joined joins
  | listened found _ accepting =>
    exact .joined (accepting.joins ⟨wellFormed.lt_nextId found, _, found⟩
      (wellFormed.number found) (orderly.expected found))
  | pairRefused found => exact kept found rfl rfl .refused
  | @paired id _ socket found =>
    have queued : net (before.setSocket id (socket.enqueue before.nextId)) = net before :=
      net_setSame (get?_of_getSocket found) rfl rfl
    rw [net_addSocket, queued]
    exact .opened .numbered (.inr ⟨_, rfl⟩)
  | closed closes =>
    rw [closes.part sound orderly]
    exact .parted

end EosBase.Uds.Stream
