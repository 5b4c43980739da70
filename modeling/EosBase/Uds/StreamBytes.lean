import EosBase.Uds.StreamTraffic

/-!
# Stream sockets deliver bytes

What was returned to an end, followed by what its queue still holds, is what its
peer was told was accepted.  This holds along every run of faithful requests; one
that is not faithful may lose bytes, as when a client with parked bytes connects to
another listener, or mix them up, as when a socket writes to a peer that is
connected to another one.
-/

namespace EosBase.Uds.Stream

open Redox UdsStreamScheme List Net.Sound Net

def extend (log : Nat → List UInt8) (id : Nat) (data : List UInt8) (other : Nat) : List UInt8 :=
  if other = id then log other ++ data else log other

/-- What a linked end got and what it still has to read is what its peer has sent;
what an idle end has sent is parked. -/
structure Balanced (sent received : Nat → List UInt8) (net : Net) : Prop where
  linked : ∀ {id connection}, net.ends id = some (.linked connection) →
    received id ++ pending connection.packets = sent connection.peer ∧ Full connection.packets
  idle : ∀ {id own}, net.ends id = some (.idle own) →
    received id = [] ∧ pending (parked own) = sent id ∧ Full (parked own)
  unused : ∀ {id}, net.next ≤ id → sent id = [] ∧ received id = []

namespace Balanced

structure At (sent received : Nat → List UInt8) (id : Nat) (seen : End) : Prop where
  balance : received id ++ pending seen.queue = sent (seen.sender id)
  full : Full seen.queue
  idle : ∀ own, seen = .idle own → received id = []

variable {sent received sentNow receivedNow : Nat → List UInt8} {net after : Net} {id : Nat}
  {own changed : Connection} {seen : End}

theorem of_at (all : ∀ {id seen}, net.ends id = some seen → At sent received id seen)
    (unused : ∀ {id}, net.next ≤ id → sent id = [] ∧ received id = []) :
    Balanced sent received net where
  linked found := ⟨(all found).balance, (all found).full⟩
  idle found := by
    obtain ⟨balance, full, idle⟩ := all found
    have nothing := idle _ rfl
    rw [nothing] at balance
    exact ⟨nothing, balance, full⟩
  unused := unused

section

variable (balanced : Balanced sent received net)

include balanced

theorem at_end (found : net.ends id = some seen) : At sent received id seen := by
  cases seen with
  | linked connection =>
    obtain ⟨balance, full⟩ := balanced.linked found
    exact ⟨balance, full, nofun⟩
  | idle own =>
    obtain ⟨nothing, balance, full⟩ := balanced.idle found
    refine ⟨?_, full, fun _ _ => nothing⟩
    rw [nothing]
    exact balance

theorem set (here : At sentNow receivedNow id seen)
    (senders : ∀ {other found}, net.ends other = some found → other ≠ id →
      sentNow (found.sender other) = sent (found.sender other))
    (readers : ∀ {other}, other ≠ id → receivedNow other = received other)
    (unused : ∀ {number}, net.next ≤ number →
      sentNow number = sent number ∧ receivedNow number = received number) :
    Balanced sentNow receivedNow (net.set id seen) := by
  refine of_at ?_ ?_
  · intro other found present
    rw [ends_set] at present
    split at present
    next same =>
      cases present
      exact same ▸ here
    next different =>
    obtain ⟨balance, full, idle⟩ := balanced.at_end present
    rw [← senders present different, ← readers different] at balance
    exact ⟨balance, full, fun own same => (readers different).trans (idle own same)⟩
  · intro number above
    rw [(unused above).1, (unused above).2]
    exact balanced.unused above

theorem take (found : net.ends id = some (.linked own)) (below : id < net.next)
    (peer : changed.peer = own.peer) {copied}
    (split : copied ++ pending changed.packets = pending own.packets)
    (full : Full changed.packets) :
    Balanced sent (extend received id copied) (net.set id (.linked changed)) := by
  refine balanced.set ⟨?_, full, nofun⟩ (fun _ _ => rfl) (fun different => if_neg different)
    fun above => ⟨rfl, if_neg (below.trans_le above).ne'⟩
  change extend received id copied id ++ pending changed.packets = sent changed.peer
  rw [extend, if_pos rfl, append_assoc, split, peer]
  exact (balanced.linked found).1

/-- A packet is put where the packets of its writer wait. -/
theorem write {packet writer old changed} (sound : Net.Sound net)
    (opened : net.ends writer = some seen) (found : net.ends id = some old)
    (sender : old.sender id = writer) (kept : changed.sender id = writer)
    (queue : changed.queue = old.queue ++ [packet])
    (idle : ∀ own, changed = .idle own → ∃ own, old = .idle own)
    (something : DataPacket.remaining packet ≠ []) :
    Balanced (extend sent writer (DataPacket.remaining packet)) received (net.set id changed) := by
  obtain ⟨balance, full, nothing⟩ := balanced.at_end found
  refine balanced.set ⟨?_, ?_, ?_⟩ ?_ (fun _ => rfl) ?_
  · rw [kept, queue, pending_append, ← append_assoc, balance, sender]
    simp [extend, pending]
  · intro queued member
    rw [queue] at member
    rcases mem_append.mp member with old | new
    · exact full queued old
    · rw [mem_singleton.mp new]
      exact something
  · intro own same
    obtain ⟨_, was⟩ := idle own same
    exact nothing _ was
  · intro other actual present different
    refine if_neg fun same => different ?_
    rw [sound.reader_eq opened present same, sound.reader_eq opened found sender]
  · exact fun above => ⟨if_neg ((sound.below opened).trans_le above).ne', rfl⟩

theorem restart {new old} (found : net.ends id = some (.idle old))
    (nothing : parked old = []) (fresh : parked new = []) :
    Balanced sent received (net.set id (.idle new)) := by
  obtain ⟨noneReceived, balance, full⟩ := balanced.idle found
  rw [nothing, ← fresh] at balance full
  refine balanced.set ⟨?_, full, fun _ _ => noneReceived⟩ (fun _ _ => rfl) (fun _ => rfl)
    fun _ => ⟨rfl, rfl⟩
  rw [noneReceived]
  exact balance

theorem add {new} (fresh : parked new = []) : Balanced sent received (net.add (.idle new)) := by
  refine of_at ?_ fun above => balanced.unused (Nat.le_of_succ_le above)
  intro other found present
  rw [ends_add] at present
  split at present
  next same =>
    cases present
    obtain ⟨noneSent, noneReceived⟩ := balanced.unused same.symm.le
    refine ⟨?_, ?_, fun _ _ => noneReceived⟩
    · simp [End.queue, End.sender, fresh, noneSent, noneReceived, pending]
    · simp [End.queue, fresh, Full]
  · exact balanced.at_end present

theorem join (found : net.ends id = some (.idle (some own))) :
    Balanced sent received (net.join id own) := by
  obtain ⟨nothing, balance, full⟩ := balanced.idle found
  obtain ⟨noneSent, noneReceived⟩ := balanced.unused le_rfl
  refine of_at ?_ fun above => balanced.unused (Nat.le_of_succ_le above)
  intro other seen present
  rw [ends_join] at present
  split at present
  next same =>
    -- The new end got nothing, and finds what the client has parked.
    cases present
    refine ⟨?_, full, nofun⟩
    rw [same, noneReceived]
    exact balance
  split at present
  next same =>
    cases present
    refine ⟨?_, by simp [End.queue, Full], nofun⟩
    rw [same, nothing]
    exact noneSent.symm
  · exact balanced.at_end present

end

theorem joins (joins : Net.Joins net after) (balanced : Balanced sent received net) :
    Balanced sent received after := by
  induction joins with
  | refl => exact balanced
  | join found _ ih => exact ih (balanced.join found)

theorem part (balanced : Balanced sent received net) : Balanced sent received (net.part id) := by
  refine of_at ?_ fun above => balanced.unused (next_part ▸ above)
  intro other seen present
  obtain ⟨_, before, found, same | ⟨link, rfl, same⟩⟩ := ends_part present
  · subst same
    exact balanced.at_end found
  · cases same
    obtain ⟨balance, full⟩ := balanced.linked found
    exact ⟨balance, full, nofun⟩

end Balanced

variable {id : Nat} {log told : Nat → List UInt8} {this : UdsStreamScheme} {event : Event}
  {output : Option (Result Reply)} {after : Net} {connection : Connection} {before : Net}
  {buffer : List UInt8}

theorem extend_of_told {data} (same : ∀ other, told other = if other = id then data else []) :
    (fun other => log other ++ told other) = extend log id data := by
  funext other
  unfold extend
  rw [same]
  split
  · rfl
  · exact append_nil _

theorem same_of_told (nothing : ∀ other, told other = []) :
    (fun other => log other ++ told other) = log := by
  funext other
  rw [nothing, append_nil]

theorem Balanced.move {sent received} (move : Move this event output after)
    (sound : Net.Sound (net this)) (delivers : Delivers this event = true)
    (balanced : Balanced sent received (net this)) :
    Balanced (fun id => sent id ++ acceptedFrom id event output)
      (fun id => received id ++ returnedTo id event output) after := by
  -- A request that carries no bytes leaves both records as they are.
  have unchanged : ∀ {other : Net}, (∀ id, acceptedFrom id event output = [] ∧
      returnedTo id event output = []) → Balanced sent received other →
      Balanced (fun id => sent id ++ acceptedFrom id event output)
        (fun id => received id ++ returnedTo id event output) other := by
    intro other quiet still
    rw [same_of_told fun id => (quiet id).1, same_of_told fun id => (quiet id).2]
    exact still
  -- A linked end keeps its packets.
  have relinked : ∀ {id : Nat} {own changed : Connection},
      (net this).ends id = some (.linked own) → changed.peer = own.peer →
      changed.packets = own.packets →
      Balanced sent received ((net this).set id (.linked changed)) := by
    intro id own changed found peer packets
    have nothing : [] ++ pending changed.packets = pending own.packets := by
      rw [packets]
      rfl
    have taken := balanced.take found (sound.below found) peer nothing
      (packets ▸ (balanced.linked found).2)
    have same : extend received id [] = received := by
      funext other
      unfold extend
      rw [append_nil, ite_self]
    rw [same] at taken
    exact taken
  -- A linked end gets the front of its queue.
  have took : ∀ {id : Nat} {own changed : Connection} {copied : List UInt8},
      (∀ other, acceptedFrom other event output = []) →
      (∀ other, returnedTo other event output = if other = id then copied else []) →
      (net this).ends id = some (.linked own) → changed.peer = own.peer →
      copied ++ pending changed.packets = pending own.packets → Full changed.packets →
      Balanced (fun id => sent id ++ acceptedFrom id event output)
        (fun id => received id ++ returnedTo id event output)
        ((net this).set id (.linked changed)) := by
    intro id own changed copied quiet observed found peer split full
    rw [same_of_told quiet, extend_of_told observed]
    exact balanced.take found (sound.below found) peer split full
  cases move with
  | idle silent more =>
    apply unchanged silent.told
    exact ⟨balanced.linked, balanced.idle, fun above => balanced.unused (more.trans above)⟩
  | opened silent fresh =>
    apply unchanged silent.told
    apply balanced.add
    rcases fresh with rfl | ⟨peer, rfl⟩ <;> rfl
  | @restarted id _ _ _ client _ _ found unconnected read issued elsewhere =>
    refine unchanged (fun id => ⟨rfl, rfl⟩) ?_
    have nothing := KeepsParked.nothing delivers found unconnected read issued elsewhere
    exact balanced.restart (idle_of_getSocket found unconnected) nothing rfl
  | sent found facing sends =>
    obtain ⟨something, _, observed⟩ := sends.observed delivers
    rw [extend_of_told fun other => (observed other).1,
      same_of_told fun other => (observed other).2]
    obtain ⟨_, equal, back⟩ := sound.facing found facing
    cases equal
    exact balanced.write sound found facing back back rfl nofun something
  | parked found sends =>
    obtain ⟨something, _, observed⟩ := sends.observed delivers
    rw [extend_of_told fun other => (observed other).1,
      same_of_told fun other => (observed other).2]
    exact balanced.write sound found found rfl rfl rfl (fun _ _ => ⟨_, rfl⟩) something
  | passed _ facing
  | misdirected _ facing => exact unchanged (fun id => ⟨rfl, rfl⟩) (relinked facing rfl rfl)
  | strayed idle facing sends =>
    obtain ⟨_, addressed, _⟩ := sends.observed delivers
    rw [not_addressed idle facing] at addressed
    cases addressed
  | @read id length flags own found =>
    obtain ⟨copied, split, full, _, reply⟩ :=
      readInner_takes (balanced.linked found).2
    refine took (fun _ => rfl) ?_ found rfl split full
    intro other
    rcases reply with given | ⟨rfl, _, error, refused⟩
    · rw [given]
      rfl
    · rw [refused, ite_self]
      rfl
  | @received id noWait stream own passcred _ _ _ changed _ found _ prepared done =>
    obtain ⟨copied, buffer, length, split, full, _, peer, rfl, shown⟩ :=
      serialized_takes (balanced.linked found).2 delivers found prepared done
    have observed : ∀ other, returnedTo other (.recvmsg id noWait stream)
        (some (.ok (.message buffer length))) = if other = id then copied else [] := by
      intro other
      unfold returnedTo
      dsimp only
      rw [shown]
    exact took (fun _ => rfl) observed found peer split full
  | obtained found _ obtains =>
    refine unchanged ?_ (relinked found rfl rfl)
    intro other
    cases obtains <;> exact ⟨rfl, rfl⟩
  | joined joins => exact unchanged (fun id => ⟨rfl, rfl⟩) (balanced.joins joins)
  | parted => exact unchanged (fun id => ⟨rfl, rfl⟩) balanced.part

theorem sent_step {transition history} (id : Nat) : sent (history ++ [transition]) id =
      sent history id ++ acceptedFrom id transition.event transition.output := by
  simp [sent]

theorem received_step {transition history} (id : Nat) : received (history ++ [transition]) id =
      received history id ++ returnedTo id transition.event transition.output := by
  simp [received]

theorem faithful_balanced {history state} (run : stream.Run Faithful history state) :
    Balanced (sent history) (received history) (net state) := by
  induction run with
  | start =>
    exact ⟨fun found => absurd found ends_start, fun found => absurd found ends_start,
      fun _ => ⟨rfl, rfl⟩⟩
  | @step history before event output after earlier faithful stepped ih =>
    obtain ⟨sound, move⟩ := orderly_move (fun _ _ faithful => faithful.1) earlier faithful stepped
    have balanced := ih.move move sound faithful.2
    rw [funext sent_step, funext received_step]
    exact balanced

theorem Net.Joins.link (joins : Net.Joins before after) (sound : Net.Sound before)
    (found : before.ends id = some (.linked connection)) :
    after.ends id = some (.linked connection) := by
  induction joins with
  | refl => exact found
  | @join _ client _ _ idle _ ih =>
    apply ih (sound.join idle)
    have notClient : id ≠ client := by
      rintro rfl
      cases found.symm.trans idle
    rw [ends_join, if_neg (sound.below found).ne, if_neg notClient]
    exact found

theorem Net.Joins.closed (joins : Net.Joins before after)
    (gone : before.ends id = none) (below : id < before.next) :
    after.ends id = none ∧ id < after.next := by
  induction joins with
  | refl => exact ⟨gone, below⟩
  | @join _ client _ _ idle _ ih =>
    refine ih ?_ (Nat.lt_succ_of_lt below)
    have notClient : id ≠ client := by
      rintro rfl
      cases gone.symm.trans idle
    rw [ends_join, if_neg below.ne, if_neg notClient]
    exact gone

theorem returnedTo_read_of_ne {reader} (different : id ≠ reader) {length flags} :
    returnedTo id (.read reader length flags) output = [] := by
  unfold returnedTo
  split
  next same =>
    cases same
    exact if_neg different
  next impossible => cases impossible
  · rfl

theorem returnedTo_recvmsg_of_ne {reader} (different : id ≠ reader) {noWait} :
    returnedTo id (.recvmsg reader noWait buffer) output = [] := by
  unfold returnedTo
  split
  next impossible => cases impossible
  next same =>
    cases same
    exact if_neg different
  · rfl

theorem Move.link (move : Move this event output after) (sound : Net.Sound (net this))
    (found : (net this).ends id = some (.linked connection)) :
    (∃ link, after.ends id = some (.linked link) ∧ link.peer = connection.peer) ∨
      event = .close id ∧ after.ends id = none ∧ id < after.next := by
  have relinked : ∀ {number : Nat} {old changed : Connection},
      (net this).ends number = some (.linked old) → changed.peer = old.peer →
      ∃ link, ((net this).set number (.linked changed)).ends id = some (.linked link) ∧
        link.peer = connection.peer := by
    intro number old changed present peer
    rw [ends_set]
    split
    next same =>
      subst same
      cases found.symm.trans present
      exact ⟨changed, rfl, peer⟩
    · exact ⟨connection, found, rfl⟩
  have elsewhere : ∀ {number : Nat} {old new : Option Connection},
      (net this).ends number = some (.idle old) →
      ∃ link, ((net this).set number (.idle new)).ends id = some (.linked link) ∧
        link.peer = connection.peer := by
    intro number old new present
    have different : id ≠ number := by
      rintro rfl
      cases found.symm.trans present
    rw [ends_set, if_neg different]
    exact ⟨connection, found, rfl⟩
  cases move with
  | idle => exact .inl ⟨connection, found, rfl⟩
  | opened =>
    rw [ends_add, if_neg (sound.below found).ne]
    exact .inl ⟨connection, found, rfl⟩
  | restarted present unconnected =>
    exact .inl (elsewhere (idle_of_getSocket present unconnected))
  | sent _ facing | passed _ facing | strayed _ facing
  | misdirected _ facing => exact .inl (relinked facing rfl)
  | parked present => exact .inl (elsewhere present)
  | read present | obtained present => exact .inl (relinked present rfl)
  | received present _ _ serialized =>
    exact .inl (relinked present (by rw [of_serializeToMsgstream serialized]))
  | joined joins => exact .inl ⟨connection, joins.link sound found, rfl⟩
  | @parted closed =>
    cases still : ((net this).part closed).ends id with
    | none =>
      rcases ends_part_none still with rfl | gone
      · rw [next_part]
        exact .inr ⟨rfl, rfl, sound.below found⟩
      · cases found.symm.trans gone
    | some seen =>
      obtain ⟨_, before, present, same | ⟨link, rfl, same⟩⟩ := ends_part still
      · subst same
        cases found.symm.trans present
        exact .inl ⟨connection, rfl, rfl⟩
      · cases found.symm.trans present
        subst same
        exact .inl ⟨_, rfl, rfl⟩

theorem Move.closed (move : Move this event output after) (gone : (net this).ends id = none)
    (below : id < (net this).next) :
    after.ends id = none ∧ id < after.next ∧ returnedTo id event output = [] := by
  have set : ∀ {number : Nat} {old changed : End}, (net this).ends number = some old →
      id ≠ number ∧ ((net this).set number changed).ends id = none := by
    intro number old changed present
    have different : id ≠ number := by
      rintro rfl
      cases gone.symm.trans present
    rw [ends_set, if_neg different]
    exact ⟨different, gone⟩
  cases move with
  | idle silent more => exact ⟨gone, below.trans_le more, (silent.told id).2⟩
  | opened silent =>
    rw [ends_add, if_neg below.ne]
    exact ⟨gone, Nat.lt_succ_of_lt below, (silent.told id).2⟩
  | restarted present => exact ⟨(set (ends_of_getSocket present)).2, below, rfl⟩
  | sent _ facing sends | strayed _ facing sends =>
    refine ⟨(set facing).2, below, ?_⟩
    cases sends <;> rfl
  | parked present sends =>
    refine ⟨(set present).2, below, ?_⟩
    cases sends
    all_goals rfl
  | passed _ facing | misdirected _ facing => exact ⟨(set facing).2, below, rfl⟩
  | read present =>
    obtain ⟨different, still⟩ := set present
    exact ⟨still, below, returnedTo_read_of_ne different⟩
  | received present =>
    obtain ⟨different, still⟩ := set present
    exact ⟨still, below, returnedTo_recvmsg_of_ne different⟩
  | obtained present _ obtains =>
    refine ⟨(set present).2, below, ?_⟩
    cases obtains <;> rfl
  | joined joins =>
    obtain ⟨still, under⟩ := joins.closed gone below
    exact ⟨still, under, rfl⟩
  | @parted closed =>
    refine ⟨?_, ?_, rfl⟩
    · cases still : ((net this).part closed).ends id with
      | none => rfl
      | some seen =>
        obtain ⟨_, before, present, _⟩ := ends_part still
        cases gone.symm.trans present
    · rw [next_part]
      exact below

theorem prefix_of_met {history state} (run : stream.Run Faithful history state) {sender receiver}
    (met : ∃ transition ∈ history, linked transition.after receiver = some sender) :
    (linked state receiver = some sender ∨
        (net state).ends receiver = none ∧ receiver < (net state).next) ∧
      received history receiver <+: sent history sender := by
  have whole := run
  induction run with
  | start =>
    obtain ⟨_, member, _⟩ := met
    cases member
  | @step history before event output after earlier faithful stepped ih =>
    obtain ⟨sound, move⟩ := orderly_move (fun _ _ faithful => faithful.1) earlier faithful stepped
    -- As long as the two are linked, the queue accounts for the difference.
    have balance : linked after receiver = some sender →
        received (history ++ [⟨before, event, output, after⟩]) receiver <+:
          sent (history ++ [⟨before, event, output, after⟩]) sender := by
      intro faces
      obtain ⟨connection, present, rfl⟩ := linked_iff.mp faces
      exact ⟨_, ((faithful_balanced whole).linked present).1⟩
    -- A step that returns nothing to the receiver keeps what was so far.
    have kept : received history receiver <+: sent history sender →
        returnedTo receiver event output = [] →
        received (history ++ [⟨before, event, output, after⟩]) receiver <+:
          sent (history ++ [⟨before, event, output, after⟩]) sender := by
      intro earlierPrefix nothing
      rw [received_step, sent_step, nothing, append_nil]
      exact earlierPrefix.trans (prefix_append _ _)
    obtain ⟨transition, member, faced⟩ := met
    rcases mem_append.mp member with old | new
    · obtain ⟨faces | ⟨gone, below⟩, earlierPrefix⟩ :=
        ih ⟨transition, old, faced⟩ earlier
      · obtain ⟨connection, present, rfl⟩ := linked_iff.mp faces
        rcases move.link sound present with ⟨link, still, peer⟩ | ⟨rfl, gone, below⟩
        · have faces := linked_iff.mpr ⟨link, still, peer⟩
          exact ⟨.inl faces, balance faces⟩
        · exact ⟨.inr ⟨gone, below⟩, kept earlierPrefix rfl⟩
      · obtain ⟨still, under, nothing⟩ := move.closed gone below
        exact ⟨.inr ⟨still, under⟩, kept earlierPrefix nothing⟩
    · rw [mem_singleton] at new
      subst new
      exact ⟨.inl faced, balance faced⟩

/-- A request that has room for bytes, and is told that there are none left. -/
inductive EndOfFile (id : Nat) : Event → Option (Result Reply) → Prop where
  | read {length flags} : 0 < length →
      EndOfFile id (.read id length flags) (some (.ok (.bytes [])))
  | recvmsg {noWait buffer reply length} :
      (∀ nameLen iovSize cleared, readMsghdrInfo buffer = .ok (nameLen, iovSize, cleared) →
        0 < iovSize) → payloadOf reply = [] →
      EndOfFile id (.recvmsg id noWait buffer) (some (.ok (.message reply length)))

theorem Told.payload {own nameLen iovSize cleared result}
    (told : Told own buffer result) (full : Full own.packets) (roomy : Roomy this id buffer = true)
    (found : (net this).ends id = some (.linked own))
    (prepared : readMsghdrInfo buffer = .ok (nameLen, iovSize, cleared)) (room : 0 < iovSize)
    (shut : own.isPeerShutdown = true) : ∃ reply length, result = .ok (.message reply length) ∧
      (payloadOf reply = [] ↔ pending own.packets = []) := by
  cases told with
  | eof empty =>
    obtain ⟨_, _, _, long⟩ := Connection.of_readMsghdrInfo prepared
    refine ⟨_, _, if_neg (by omega), ?_⟩
    rw [payloadOf_eof, empty]
    exact ⟨fun _ => rfl, fun _ => rfl⟩
  | later _ opened =>
    rw [shut] at opened
    cases opened
  | short short =>
    rw [prepared] at short
    cases short
  | message header serialized =>
    cases prepared.symm.trans header
    obtain ⟨copied, reply, length, _, _, count, _, rfl, shown⟩ :=
      serialized_takes full roomy found prepared serialized
    refine ⟨reply, length, rfl, ?_⟩
    rw [shown, ← length_eq_zero_iff, ← length_eq_zero_iff, count]
    omega

theorem Told.exhausted {own length reply}
    (told : Told own buffer (.ok (.message reply length))) (full : Full own.packets)
    (roomy : Roomy this id buffer = true) (found : (net this).ends id = some (.linked own))
    (room : ∀ nameLen iovSize cleared, readMsghdrInfo buffer = .ok (nameLen, iovSize, cleared) →
      0 < iovSize) (nothing : payloadOf reply = []) : pending own.packets = [] := by
  generalize answer : (Except.ok (.message reply length) : Result Reply) = result at told
  cases told with
  | eof empty =>
    rw [empty]
    rfl
  | later => cases answer
  | short => cases answer
  | message prepared serialized =>
    obtain ⟨copied, _, _, _, _, count, _, same, shown⟩ :=
      serialized_takes full roomy found prepared serialized
    cases answer.trans same
    have positive := room _ _ _ prepared
    rw [← shown, nothing, length_nil] at count
    apply length_eq_zero_iff.mp
    omega

/-- Whatever the receiver got is a front of what its peer was told was accepted; an
end of file means that it got everything; and once the peer is closed, it is told
the end of file as soon as it did. -/
theorem stream_bytes {history : List (Transition UdsStreamScheme Event (Result Reply))}
    {state : UdsStreamScheme} (run : stream.Run Faithful history state) (sender receiver : Nat) :
    (∀ transition ∈ history, linked transition.after receiver = some sender →
      received history receiver <+: sent history sender) ∧
    (linked state receiver = some sender → (∀ event output after, Faithful state event →
        stream.step state event = some (after, output) → EndOfFile receiver event output →
        received history receiver = sent history sender) ∧
      (state.handles.get? sender = none → (∀ length flags, 0 < length → ∃ after data,
          stream.step state (.read receiver length flags) =
            some (after, some (.ok (.bytes data))) ∧
          (data = [] ↔ received history receiver = sent history sender)) ∧
        (∀ noWait buffer nameLen iovSize cleared after output,
          readMsghdrInfo buffer = .ok (nameLen, iovSize, cleared) → 0 < iovSize →
          Faithful state (.recvmsg receiver noWait buffer) →
          stream.step state (.recvmsg receiver noWait buffer) = some (after, output) →
          ∃ reply length, output = some (.ok (.message reply length)) ∧
            (payloadOf reply = [] ↔ received history receiver = sent history sender)))) := by
  refine ⟨fun transition member faced => (prefix_of_met run ⟨transition, member, faced⟩).2, ?_⟩
  intro faces
  obtain ⟨own, found, rfl⟩ := linked_iff.mp faces
  obtain ⟨balance, full⟩ := (faithful_balanced run).linked found
  have sound := orderly_sound (fun _ _ faithful => faithful.1) ⟨history, run⟩
  have exhausted : pending own.packets = [] ↔
      received history receiver = sent history own.peer := by
    rw [← balance]
    simp
  constructor
  · intro event output after faithful stepped ended
    apply exhausted.mp
    cases ended with
    | @read length flags positive =>
      obtain ⟨_, reads⟩ := step_read found
      obtain ⟨copied, _, _, count, reply⟩ := readInner_takes full
      rw [reads] at stepped
      have same : (own.readInner length flags).2 = .ok (.bytes []) := by
        injection stepped with pair
        injection pair with _ output
        injection output
      rcases reply with given | ⟨_, _, _, refused⟩
      · cases given.symm.trans same
        rw [length_nil] at count
        apply length_eq_zero_iff.mp
        omega
      · cases refused.symm.trans same
    | recvmsg positive empty =>
      obtain ⟨_, same, told⟩ := step_recvmsg found stepped
      cases same
      exact told.exhausted full faithful.2 found positive empty
  · intro closed
    have gone : (net state).ends own.peer = none := by
      unfold net getSocket
      dsimp only
      rw [closed]
      rfl
    have shut := sound.ended found gone
    constructor
    · intro length flags positive
      obtain ⟨after, reads⟩ := step_read found
      obtain ⟨copied, _, _, count, reply⟩ := readInner_takes full
      rcases reply with given | ⟨_, opened, _⟩
      · refine ⟨after, copied, given ▸ reads, Iff.trans ?_ exhausted⟩
        rw [← length_eq_zero_iff, ← length_eq_zero_iff, count]
        omega
      · rw [shut] at opened
        cases opened
    · intro noWait buffer nameLen iovSize cleared after output prepared room faithful stepped
      obtain ⟨_, rfl, told⟩ := step_recvmsg found stepped
      obtain ⟨reply, length, rfl, ends⟩ :=
        told.payload full faithful.2 found prepared room shut
      exact ⟨reply, length, rfl, ends.trans exhausted⟩

/-- The client writes before and after it is accepted as socket 4, which reads one
byte, and closes: the other byte is still read before the end of file. -/
theorem stream_bytes_parked :
    ∃ history state, stream.Run Faithful history state ∧ linked state 4 = some 3 ∧
      state.handles.get? 3 = none ∧ sent history 3 = [0x78, 0x79] ∧ received history 4 = [0x78] ∧
      received history 4 <+: sent history 3 ∧
      ∃ after data, stream.step state (.read 4 16 0) = some (after, some (.ok (.bytes data))) ∧
        (data = [] ↔ received history 4 = sent history 3) := by
  have run := stream.run_replay Faithful (connectFirst ++ [.write 3 [0x78] ⟨1, 0, 0⟩ none,
    .dupListen 1 (fun _ => none), .write 3 [0x79] ⟨1, 0, 0⟩ none, .read 4 1 0, .close 3])
    (by decide +kernel)
  obtain ⟨earlier, later⟩ := stream_bytes run 3 4
  obtain ⟨_, closed⟩ := later rfl
  obtain ⟨reads, _⟩ := closed rfl
  refine ⟨_, _, run, rfl, rfl, rfl, rfl, ?_, reads 16 0 (by decide)⟩
  exact earlier _ (getLast_mem (cons_ne_nil _ _)) rfl

/-- The client connects to the second listener after it has written for the first:
the byte that it was told was accepted is lost. -/
theorem parked_bytes_lost :
    ∃ history state, stream.Run (fun _ _ => True) history state ∧ linked state 4 = some 3 ∧
      ¬ received history 4 <+: sent history 3 := by
  have run := stream.run_replay (fun _ _ => True) (connectFirst ++
    [.write 3 [0x78] ⟨1, 0, 0⟩ none, .connect 3 (leBytes 8 8) none, .dupListen 2 (fun _ => none),
      .write 3 [0x79] ⟨1, 0, 0⟩ none, .read 4 16 0]) (by decide +kernel)
  refine ⟨_, _, run, rfl, ?_⟩
  decide

end EosBase.Uds.Stream
