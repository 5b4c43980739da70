import EosBase.Uds.StreamPairs
import EosBase.Uds.StreamReply

/-!
# What is carried over a connection

What the two ways of reading take from a queue, what the two sides are told about
the bytes between them, and the requests after which these accounts agree.
-/

namespace EosBase.Uds.Stream

open Redox UdsStreamScheme List Stream.DataPacket Connection Socket Option

def pending (packets : List DataPacket) : List UInt8 :=
  (packets.map remaining).flatten

def Full (packets : List DataPacket) : Prop :=
  ∀ packet ∈ packets, remaining packet ≠ []

variable {first second : List DataPacket} {packets : List DataPacket}

theorem Full.of_same (same : second.map remaining = first.map remaining)
    (full : Full first) : Full second := by
  intro packet member
  have among : remaining packet ∈ first.map remaining :=
    same ▸ mem_map_of_mem member
  obtain ⟨other, present, equal⟩ := mem_map.mp among
  rw [← equal]
  exact full other present

theorem pending_append : pending (first ++ second) = pending first ++ pending second := by
  unfold pending
  rw [map_append, flatten_append]

theorem pending_cons {packet rest} : pending
    (packet :: rest) = remaining packet ++ pending rest := rfl

theorem readLoop_takes (full : Full packets) (room : Nat) :
    (readLoop room packets).1 ++ pending (readLoop room packets).2 =
        pending packets ∧
      (readLoop room packets).1.length = min room (pending packets).length ∧
      Full (readLoop room packets).2 := by
  induction packets generalizing room with
  | nil => exact ⟨rfl, by simp [readLoop, pending], full⟩
  | cons packet rest ih =>
    have some : remaining packet ≠ [] := full packet (by simp)
    have fullRest : Full rest := fun other member => full other (by simp [member])
    have positive := length_pos_iff.mpr some
    unfold readLoop
    dsimp only
    split
    next none =>
      have noRoom : room = 0 := by omega
      subst noRoom
      exact ⟨rfl, by simp, full⟩
    next copies =>
    have size : (remaining packet).length = packet.payload.length - packet.readOffset := by
      unfold remaining
      rw [length_drop]
    split
    next finished =>
      obtain ⟨taken, count, fullLeft⟩ := ih fullRest (room - min (remaining packet).length room)
      have whole : (remaining packet).take
          (min (remaining packet).length room) = remaining packet :=
        take_of_length_le (by omega)
      refine ⟨?_, ?_, fullLeft⟩
      · rw [whole, append_assoc, taken, pending_cons]
      · rw [whole, length_append, count, pending_cons, length_append]
        omega
    next partly =>
    have left : remaining { packet with
        ancillaryTaken := packet.ancillaryTaken || packet.readOffset == 0
        readOffset :=
          packet.readOffset + min (remaining packet).length room } =
        (remaining packet).drop
          (min (remaining packet).length room) := by
      unfold remaining
      rw [drop_drop]
    refine ⟨?_, ?_, ?_⟩
    · rw [pending_cons, pending_cons, left, ← append_assoc, take_append_drop]
    · rw [length_take, pending_cons, length_append]
      omega
    · intro other member
      rcases mem_cons.mp member with rfl | old
      · rw [left]
        intro empty
        have length := congrArg length empty
        rw [length_drop, length_nil] at length
        omega
      · exact fullRest other old

/-- The loop of `recvmsg` takes the bytes that the one of `read` takes. -/
theorem collectLoop_takes (room : Nat) (name : Option Name) :
    (collectLoop room name packets).payload =
        (readLoop room packets).1 ∧
      (collectLoop room name packets).packets.map remaining =
        (readLoop room packets).2.map remaining := by
  induction packets generalizing room name with
  | nil => exact ⟨rfl, rfl⟩
  | cons packet rest ih =>
    unfold collectLoop readLoop
    dsimp only
    split
    · exact ⟨rfl, rfl⟩
    split
    · obtain ⟨payload, packets⟩ := ih (room - min (remaining packet).length room)
        (if packet.ancillaryTaken = true then name else name <|> packet.ancillaryData.name)
      exact ⟨by rw [payload], packets⟩
    · exact ⟨rfl, rfl⟩

def acceptedFrom (id : Nat) (event : Event) (output : Option (Result Reply)) : List UInt8 :=
  match event, output with
  | .write sender buf _ _, some (.ok (.count length)) =>
    if id = sender then buf.take length else []
  | .sendmsg sender _ stream _ _, some (.ok (.count length)) =>
    if id = sender then (stream.drop wordSize).take length else []
  | _, _ => []

def returnedTo (id : Nat) (event : Event) (output : Option (Result Reply)) : List UInt8 :=
  match event, output with
  | .read receiver _ _, some (.ok (.bytes data)) => if id = receiver then data else []
  | .recvmsg receiver _ _, some (.ok (.message buffer _)) =>
    if id = receiver then payloadOf buffer else []
  | _, _ => []

def sent (history : List (Transition UdsStreamScheme Event (Result Reply))) (id : Nat) :
    List UInt8 :=
  history.flatMap fun transition => acceptedFrom id transition.event transition.output

def received (history : List (Transition UdsStreamScheme Event (Result Reply))) (id : Nat) :
    List UInt8 :=
  history.flatMap fun transition => returnedTo id transition.event transition.output

theorem payloadOf_eof {rest} : payloadOf (replicate (2 * wordSize) 0 ++ rest) = [] := by
  have laidOut : LaidOut (replicate (2 * wordSize) 0 ++ rest) [] [] [] := ⟨rest, rfl⟩
  exact laidOut.payloadOf (by decide) (by decide)

variable {event : Event}

theorem Silent.told {output} (silent : Silent event output) (id : Nat) :
    acceptedFrom id event output = [] ∧ returnedTo id event output = [] := by
  cases silent with
  | refused | numbered => cases event <;> exact ⟨rfl, rfl⟩
  | option => exact ⟨rfl, rfl⟩
  | nothing empty =>
    cases empty <;> cases event <;> simp [acceptedFrom, returnedTo]
  | eof =>
    refine ⟨rfl, ?_⟩
    unfold writeEof
    split
    · rfl
    unfold returnedTo
    dsimp only
    rw [payloadOf_eof]
    split <;> rfl

/-- The socket is connected, or its peer is not connected to another one. -/
def Addressed (this : UdsStreamScheme) (id : Nat) : Bool :=
  (this.getSocket id).all fun sender => sender.state.connected ||
    sender.connection.all fun connection =>
      (this.getSocket connection.peer).all fun receiver => !receiver.state.connected

/-- A client does not give up bytes that it has parked for another listener. -/
def KeepsParked (this : UdsStreamScheme) (id : Nat) (tokenBuf : List UInt8) : Bool :=
  (this.getSocket id).all fun client => client.state.connected ||
    client.connection.all fun connection => connection.packets.isEmpty ||
      match (readNum 8 tokenBuf).toOption.bind this.socketTokens.get? with
      | some listener => client.state == .connecting && listener == connection.peer
      | none => true

/-- The buffer has room for the name and the payload that it announces, and for
the number of descriptors unless there are as many as the packets say. -/
def Roomy (this : UdsStreamScheme) (id : Nat) (stream : List UInt8) : Bool :=
  match readMsghdrInfo stream with
  | .ok (nameLen, iovSize, _) =>
    decide (wordSize + nameLen + wordSize + iovSize ≤ stream.length) &&
      (decide (wordSize + nameLen + wordSize + iovSize + (cmsgHeaderLen + wordSize) ≤
          stream.length) ||
        (this.getSocket id).all fun receiver => receiver.connection.all fun connection =>
          decide (countFds (collectLoop iovSize none
            connection.packets).ancillary ≤ connection.fds.length))
  | .error _ => true

/-- A request that neither loses nor misdirects bytes, and whose sender is told of
those it queues: no notification fails after they were queued. -/
def Delivers (this : UdsStreamScheme) : Event → Bool
  | .connect id tokenBuf _ => KeepsParked this id tokenBuf
  | .write id _ _ posted => posted.isNone && Addressed this id
  | .sendmsg id _ _ _ posted => posted.isNone && Addressed this id
  | .recvmsg id _ stream => Roomy this id stream
  | _ => true

def Faithful (this : UdsStreamScheme) (event : Event) : Prop :=
  Orderly this event ∧ Delivers this event = true

instance (this : UdsStreamScheme) (event : Event) : Decidable (Faithful this event) :=
  inferInstanceAs (Decidable (_ ∧ _))

variable {this : UdsStreamScheme} {id : Nat} {own : Connection}

theorem not_addressed {other} (idle : (net this).ends id = some (.idle (some own)))
    (facing : (net this).ends own.peer = some (.linked other)) : Addressed this id = false := by
  obtain ⟨sender, found, shown⟩ := getSocket_of_ends idle
  obtain ⟨receiver, present, faced⟩ := getSocket_of_ends facing
  have connected := (of_toEnd_linked faced).1
  obtain ⟨unconnected, held⟩ := of_toEnd_idle shown
  simp [Addressed, found, unconnected, held, present, connected]

def parked : Option Connection → List DataPacket
  | some connection => connection.packets
  | none => []

theorem KeepsParked.nothing {token listenerId tokenBuf client}
    (keeps : KeepsParked this id tokenBuf = true) (found : this.getSocket id = some client)
    (unconnected : client.state.connected = false) (read : readNum 8 tokenBuf = .ok token)
    (issued : this.socketTokens.get? token = some listenerId)
    (elsewhere : client.state = .connecting → client.connection.map peer ≠ some listenerId) :
    parked client.connection = [] := by
  cases held : client.connection with
  | none => rfl
  | some connection =>
    simp only [KeepsParked, found, all_some, unconnected, held, read, Except.toOption,
      bind_some, issued, Bool.false_or, Bool.or_eq_true, List.isEmpty_iff,
      Bool.and_eq_true, beq_iff_eq] at keeps
    rcases keeps with empty | ⟨connecting, same⟩
    · exact empty
    · -- A client that waits for this listener already would not have turned to it.
      rw [held, same] at elsewhere
      exact absurd rfl (elsewhere connecting)

theorem Roomy.room {cleared nameLen iovSize stream}
    (roomy : Roomy this id stream = true) (found : (net this).ends id = some (.linked own))
    (prepared : readMsghdrInfo stream = .ok (nameLen, iovSize, cleared)) :
    wordSize + nameLen + wordSize + iovSize ≤ stream.length ∧
      (wordSize + nameLen + wordSize + iovSize + (cmsgHeaderLen + wordSize) ≤ stream.length ∨
        countFds (collectLoop iovSize none own.packets).ancillary ≤ own.fds.length) := by
  obtain ⟨receiver, present, shown⟩ := getSocket_of_ends found
  have held := (of_toEnd_linked shown).2
  simpa only [Roomy, prepared, present, all_some, held, Bool.and_eq_true,
    Bool.or_eq_true, decide_eq_true_eq] using roomy

def End.queue : End → List DataPacket
  | .linked connection => connection.packets
  | .idle own => parked own

def End.sender (id : Nat) : End → Nat
  | .linked connection => connection.peer
  | .idle _ => id

theorem Net.Sound.sender_lt {net seen} (sound : Net.Sound net)
    (found : net.ends id = some seen) : seen.sender id < net.next := by
  cases seen with
  | linked => exact sound.peer found
  | idle => exact sound.below found

/-- What an open end has sent waits at one place. -/
theorem Net.Sound.reader_eq {net writer seen found} (sound : Net.Sound net)
    (opened : net.ends writer = some seen) (present : net.ends id = some found)
    (sends : found.sender id = writer) : id = seen.sender writer := by
  subst sends
  cases found with
  | linked connection =>
    obtain ⟨other, rfl, back⟩ := sound.facing present opened
    exact back.symm
  | idle =>
    cases present.symm.trans opened
    rfl

theorem payload_of_fromStream {packet stream name cred}
    (parsed : DataPacket.fromStream stream name cred = .ok packet) :
    DataPacket.remaining packet = packet.payload ∧
      (stream.drop wordSize).take packet.payload.length = packet.payload := by
  obtain ⟨payloadLen, _, parsed⟩ := ok_of_bind parsed
  obtain ⟨payload, sliced, parsed⟩ := ok_of_bind parsed
  obtain ⟨numFds, _, parsed⟩ := ok_of_bind parsed
  cases parsed
  refine ⟨rfl, ?_⟩
  have found := okOr_ok sliced
  unfold slice? at found
  split at found
  next within =>
    cases found
    dsimp only [DataPacket.new]
    rw [length_take, length_drop]
    congr 1
    omega
  · cases found

theorem Sends.observed {packet output} (sends : Sends id packet event output)
    (delivers : Delivers this event = true) :
    remaining packet ≠ [] ∧ Addressed this id = true ∧
      ∀ other, acceptedFrom other event output =
          (if other = id then remaining packet else []) ∧
        returnedTo other event output = [] := by
  cases sends with
  | @write buf _ _ posted full =>
    obtain ⟨quiet, addressed⟩ := Bool.and_eq_true_iff.mp delivers
    cases isNone_iff_eq_none.mp quiet
    refine ⟨full, addressed, ?_⟩
    intro other
    refine ⟨?_, rfl⟩
    unfold acceptedFrom told
    dsimp only
    rw [take_length]
    rfl
  | @sendmsg _ _ stream _ _ _ posted parsed full =>
    obtain ⟨quiet, addressed⟩ := Bool.and_eq_true_iff.mp delivers
    cases isNone_iff_eq_none.mp quiet
    obtain ⟨whole, sliced⟩ := payload_of_fromStream parsed
    refine ⟨whole ▸ full, addressed, ?_⟩
    intro other
    refine ⟨?_, rfl⟩
    unfold acceptedFrom told
    dsimp only
    rw [sliced, whole]

theorem readInner_takes (full : Full own.packets) {length flags} :
    ∃ copied, copied ++ pending (own.readInner length flags).1.packets = pending own.packets ∧
      Full (own.readInner length flags).1.packets ∧
      copied.length = min length (pending own.packets).length ∧
      ((own.readInner length flags).2 = .ok (.bytes copied) ∨
        copied = [] ∧ own.isPeerShutdown = false ∧
          ∃ error, (own.readInner length flags).2 = .error error) := by
  obtain ⟨split, count, fullLeft⟩ := readLoop_takes full length
  refine ⟨(readLoop length own.packets).1, split, fullLeft, count, ?_⟩
  unfold readInner
  dsimp only
  split
  · exact .inl rfl
  next empty =>
  rw [not_not.mp empty]
  split
  · exact .inl rfl
  next opened => exact .inr ⟨rfl, by simpa using opened, _, rfl⟩

/-- What a `recvmsg` returns is the front of the queue as well. -/
theorem serialized_takes {cleared changed stream nameLen iovSize passcred result}
    (full : Full own.packets)
    (roomy : Roomy this id stream = true) (found : (net this).ends id = some (.linked own))
    (prepared : readMsghdrInfo stream = .ok (nameLen, iovSize, cleared))
    (done : own.serializeToMsgstream cleared nameLen iovSize passcred = some (changed, result)) :
    ∃ copied buffer length, copied ++ pending changed.packets = pending own.packets ∧
      Full changed.packets ∧ copied.length = min iovSize (pending own.packets).length ∧
      changed.peer = own.peer ∧ result = .ok (.message buffer length) ∧
      payloadOf buffer = copied := by
  obtain ⟨room, control⟩ := Roomy.room roomy found prepared
  obtain ⟨split, count, fullLeft⟩ := readLoop_takes full iovSize
  obtain ⟨payload, left⟩ := collectLoop_takes iovSize none
  have same : pending (collectLoop iovSize none own.packets).packets =
      pending (readLoop iovSize own.packets).2 := by
    unfold pending
    rw [left]
  have taken : (collectLoop iovSize none own.packets).payload ++
      pending (collectLoop iovSize none own.packets).packets = pending own.packets := by
    rw [payload, same]
    exact split
  cases serialized_of_done prepared room done with
  | announced shown | dropped _ _ shown =>
    exact ⟨_, _, _, taken, fullLeft.of_same left, payload ▸ count, rfl, rfl, shown⟩
  | failed few tight => omega

theorem step_read (found : (net this).ends id = some (.linked own)) {length flags} :
    ∃ after, stream.step this (.read id length flags) =
      some (after, some (own.readInner length flags).2) := by
  obtain ⟨socket, present, shown⟩ := getSocket_of_ends found
  obtain ⟨connected, held⟩ := of_toEnd_linked shown
  have ready : socket.requireConnectedConnection false = .ok own := by
    unfold requireConnectedConnection
    cases state : socket.state
    case accepted => exact congrArg (okOr .EPROTO) held
    case established => exact congrArg (okOr .EPROTO) held
    all_goals
      rw [state] at connected
      cases connected
  refine ⟨this.setConnection id socket (own.readInner length flags).1, ?_⟩
  change (this.read id length flags).map _ = _
  unfold UdsStreamScheme.read
  rw [present]
  dsimp only
  rw [ready]
  rfl

inductive Told (own : Connection) (buffer : List UInt8) : Result Reply → Prop where
  | eof : own.packets = [] → own.isPeerShutdown = true → Told own buffer (writeEof buffer)
  | later {error} : own.packets = [] → own.isPeerShutdown = false →
      Told own buffer (.error error)
  | short {error} : readMsghdrInfo buffer = .error error → Told own buffer (.error error)
  | message {nameLen iovSize cleared passcred changed result} :
      readMsghdrInfo buffer = .ok (nameLen, iovSize, cleared) →
      own.serializeToMsgstream cleared nameLen iovSize passcred = some (changed, result) →
      Told own buffer result

theorem step_recvmsg {output after noWait buffer} (found : (net this).ends id = some (.linked own))
    (stepped : stream.step this (.recvmsg id noWait buffer) = some (after, output)) :
    ∃ result, output = some result ∧ Told own buffer result := by
  obtain ⟨socket, present, shown⟩ := getSocket_of_ends found
  obtain ⟨connected, held⟩ := of_toEnd_linked shown
  obtain ⟨⟨_, result⟩, handled, same⟩ := map_eq_some_iff.mp stepped
  cases same
  refine ⟨result, rfl, ?_⟩
  unfold handleRecvmsg at handled
  rw [present] at handled
  dsimp only at handled
  rw [if_pos connected, held] at handled
  dsimp only at handled
  split at handled
  next empty =>
    split at handled
    next shut =>
      cases handled
      exact .eof empty shut
    next opened =>
    cases handled
    exact .later empty (by simpa using opened)
  · unfold recvmsgInner at handled
    split at handled
    next error short =>
      cases handled
      exact .short short
    next prepared =>
    split at handled
    · cases handled
    next serialized =>
    cases handled
    exact .message prepared serialized

end EosBase.Uds.Stream
