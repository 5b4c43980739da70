import EosBase.Uds.StreamPost

/-!
# Passed descriptors stay with their messages

The counts of the two queues hold as long as nobody takes descriptors out of turn:
`read` marks the descriptors of a message as taken and leaves them in the queue, and
a `recvmsg` without room for their number drops those at the front, whoever they
belong to.
-/

namespace EosBase.Uds.Stream

open Redox UdsStreamScheme List Connection Post

/-- The messages of a sender announce the descriptors that it passed before them. -/
def Announces (sender : Nat) (post : Post) : Event → Bool
  | .write id buf _ _ => id != sender || buf.isEmpty || post.loose.isEmpty
  | .sendmsg id _ buffer _ _ => id != sender ||
      match DataPacket.fromStream buffer none ⟨0, 0, 0⟩ with
      | .ok packet => packet.payload.isEmpty ||
          packet.ancillaryData.numFds == post.loose.length
      | .error _ => true
  | _ => true

/-- The peer of a sender does not `read` what descriptors come with, obtains what
it was told about, and has done so before it gives no room for their number. -/
def Attends (sender : Nat) (post : Post) (before : UdsStreamScheme) : Event → Bool
  | .read id length _ =>
    linked before id != some sender || (consume length post.letters).1.isEmpty
  | .recvmsg id _ buffer =>
    linked before id != some sender || post.obtained.length == post.announced.length ||
      match readMsghdrInfo buffer with
      | .ok (nameLen, iovSize, _) =>
        decide (wordSize + nameLen + wordSize + iovSize + (cmsgHeaderLen + wordSize) ≤
          buffer.length)
      | .error _ => true
  | .dupRecvfd id =>
    linked before id != some sender ||
      decide (post.obtained.length + 1 ≤ post.announced.length)
  | .recvfd id numFds _ =>
    linked before id != some sender ||
      decide (post.obtained.length + numFds ≤ post.announced.length)
  | _ => true

/-- A rule about a sender's post is kept at every step of a history. -/
def Follows (sender : Nat) (rule : Post → Transition UdsStreamScheme Event (Result Reply) → Bool) :
    Post → List (Transition UdsStreamScheme Event (Result Reply)) → Bool
  | _, [] => true
  | post, transition :: rest =>
    rule post transition &&
      Follows sender rule
        (post.next sender transition.before transition.event transition.output) rest

/-- The sender announces with every message what it passed before it. -/
def Announcing (sender : Nat)
    (history : List (Transition UdsStreamScheme Event (Result Reply))) : Bool :=
  Follows sender (fun post transition => Announces sender post transition.event) .empty history

def Attending (sender : Nat)
    (history : List (Transition UdsStreamScheme Event (Result Reply))) : Bool :=
  Follows sender
    (fun post transition => Attends sender post transition.before transition.event) .empty history

/-- The buffer has room for the name and the payload, and the queue of descriptors
does not outgrow a machine word. -/
def Fits (this : UdsStreamScheme) (id : Nat) (buffer : List UInt8) : Bool :=
  match readMsghdrInfo buffer with
  | .ok (nameLen, iovSize, _) =>
    decide (wordSize + nameLen + wordSize + iovSize ≤ buffer.length) &&
      (this.getSocket id).all fun receiver => receiver.connection.all fun connection =>
        decide (connection.fds.length < 2 ^ 64)
  | .error _ => true

def Hands (this : UdsStreamScheme) : Event → Bool
  | .recvmsg id _ buffer => Fits this id buffer
  | .sendfd id _ posted => posted.isNone && Addressed this id
  | .recvfd _ _ moved => moved
  | event => Delivers this event

def Undisturbed (this : UdsStreamScheme) (event : Event) : Prop :=
  Orderly this event ∧ Hands this event = true

instance (this : UdsStreamScheme) (event : Event) : Decidable (Undisturbed this event) :=
  inferInstanceAs (Decidable (_ ∧ _))

variable {this : UdsStreamScheme} {id nameLen iovSize : Nat} {buffer cleared : List UInt8}
  {own : Connection} {output : Option (Result Reply)} {event : Event} {packet : DataPacket}

theorem Fits.room (fits : Fits this id buffer = true)
    (found : (net this).ends id = some (.linked own))
    (prepared : readMsghdrInfo buffer = .ok (nameLen, iovSize, cleared)) :
    wordSize + nameLen + wordSize + iovSize ≤ buffer.length ∧ own.fds.length < 2 ^ 64 := by
  obtain ⟨receiver, present, shown⟩ := getSocket_of_ends found
  have held := (Socket.of_toEnd_linked shown).2
  simpa only [Fits, prepared, present, Option.all_some, held, Bool.and_eq_true,
    decide_eq_true_eq] using fits

@[simp]
theorem Post.pass_nil {post : Post} : post.pass [] = post := by
  unfold pass
  rw [append_nil]

@[simp]
theorem Post.take_nil {post : Post} : post.take [] = post := by
  unfold take
  rw [append_nil]

@[simp]
theorem Post.mail_zero {post : Post} : post.mail 0 = post := rfl

@[simp]
theorem Post.collect_zero {post : Post} {announcedFds} : post.collect 0 announcedFds = post := by
  unfold collect
  rw [consume_zero, ite_self, append_nil]

theorem Silent.next (silent : Silent event output) (sender : Nat) (post : Post)
    (before : UdsStreamScheme) : post.next sender before event output = post := by
  cases silent with
  | refused | numbered =>
    cases event
    case sendfd obtained _ => cases obtained <;> rfl
    all_goals rfl
  | option => rfl
  | nothing empty =>
    cases event
    case sendfd obtained _ => cases obtained <;> cases empty <;> simp [Post.next]
    all_goals cases empty <;> simp [Post.next, acceptedFrom]
  | eof =>
    unfold writeEof
    split
    · rfl
    · unfold Post.next
      dsimp only
      rw [payloadOf_eof, length_nil, Post.collect_zero, ite_self]

theorem fromStream_anonymous {name cred}
    (parsed : DataPacket.fromStream buffer name cred = .ok packet) :
    DataPacket.fromStream buffer none ⟨0, 0, 0⟩ =
        .ok (.new packet.payload { AncillaryData.new ⟨0, 0, 0⟩ none with
          numFds := packet.ancillaryData.numFds }) ∧
      packet.readOffset = 0 ∧ packet.ancillaryTaken = false := by
  obtain ⟨payloadLen, first, parsed⟩ := ok_of_bind parsed
  obtain ⟨payload, second, parsed⟩ := ok_of_bind parsed
  obtain ⟨numFds, third, parsed⟩ := ok_of_bind parsed
  cases parsed
  refine ⟨?_, rfl, rfl⟩
  unfold DataPacket.fromStream
  rw [first]
  change (okOr _ _ >>= _) = _
  rw [second]
  rw [third]
  rfl

section

variable (sends : Sends id packet event output)

include sends

theorem Sends.delivers (hands : Hands this event = true) : Delivers this event = true := by
  cases sends <;> exact hands

theorem Sends.announces {post} (announces : Announces id post event = true) :
    packet.ancillaryTaken = false ∧ packet.readOffset = 0 ∧
      packet.ancillaryData.numFds = post.loose.length := by
  cases sends with
  | @write buf _ _ _ full =>
    refine ⟨rfl, rfl, ?_⟩
    simp only [Announces, bne_self_eq_false, Bool.false_or, Bool.or_eq_true,
      List.isEmpty_iff] at announces
    rw [announces.resolve_left full]
    rfl
  | sendmsg parsed full =>
    obtain ⟨same, offset, taken⟩ := fromStream_anonymous parsed
    refine ⟨taken, offset, ?_⟩
    simp only [Announces, bne_self_eq_false, Bool.false_or, same, Bool.or_eq_true,
      List.isEmpty_iff, beq_iff_eq] at announces
    exact announces.resolve_left full

theorem Sends.next (delivers : Delivers this event = true) (sender : Nat) (post : Post) :
    post.next sender this event output =
      if sender = id then post.mail (DataPacket.remaining packet).length else post := by
  obtain ⟨_, _, observed⟩ := sends.observed delivers
  have mails : post.next sender this event output =
      post.mail (acceptedFrom sender event output).length := by
    cases sends <;> rfl
  rw [mails, (observed sender).1]
  split
  · rfl
  · exact mail_zero

end

theorem countFds_eq {ancillary} :
    countFds ancillary = (ancillary.map AncillaryData.numFds).sum % 2 ^ 64 := by
  rw [sum_eq_foldl, foldl_map]
  exact @foldl_hom _ _ _ (· % 2 ^ 64) _ (fun numFds data => (numFds + data.numFds) % 2 ^ 64)
    ancillary 0 fun start data => Nat.mod_add_mod start _ _

inductive Asks (id : Nat) : Event → Prop where
  | read {length flags} : Asks id (.read id length flags)
  | recvmsg {noWait buffer} : Asks id (.recvmsg id noWait buffer)
  | dupRecvfd : Asks id (.dupRecvfd id)
  | recvfd {numFds moved} : Asks id (.recvfd id numFds moved)

variable {sender : Nat} {noWait : Bool} {length : Nat}

theorem Asks.next (asks : Asks id event) (elsewhere : linked this id ≠ some sender) (post : Post)
    (output : Option (Result Reply)) : post.next sender this event output = post := by
  rcases output with _ | (error | reply)
  · cases asks <;> rfl
  · cases asks <;> rfl
  · cases asks <;> cases reply <;> simp [Post.next, elsewhere]

theorem Attends.recvmsg {post}
    (attends : Attends sender post this (.recvmsg id noWait buffer) = true)
    (facing : linked this id = some sender)
    (prepared : readMsghdrInfo buffer = .ok (nameLen, iovSize, cleared)) :
    post.obtained.length = post.announced.length ∨
      wordSize + nameLen + wordSize + iovSize + (cmsgHeaderLen + wordSize) ≤ buffer.length := by
  simpa only [Attends, facing, bne_self_eq_false, Bool.false_or, prepared, Bool.or_eq_true,
    beq_iff_eq, decide_eq_true_eq] using attends

/-- A `read` that opens no message with descriptors. -/
theorem Filed.read {post packets fds}
    (filed : Filed post packets fds) (plain : (consume length post.letters).1 = []) :
    Filed (post.collect (readLoop length packets).1.length 0) (readLoop length packets).2 fds := by
  obtain ⟨left, _⟩ := collectLoop_consumes filed.1 length none
  rw [(collectLoop_takes length none).1] at left
  have few : (readLoop length packets).1.length ≤ length := by
    rw [(readLoop_takes (full_of_sealed filed.1) length).2.1]
    exact Nat.min_le_left _ _
  apply filed.announce (sealed_of_marks left (collectLoop_marks filed.1 length none))
  rw [consume_nil_of_le few plain]
  rfl

theorem next_read (faces : linked this id = some sender) {post : Post} {flags} :
    post.next sender this (.read id length flags) (some (own.readInner length flags).2) =
      post.collect (readLoop length own.packets).1.length 0 := by
  unfold readInner
  dsimp only
  split
  · exact if_pos faces
  next empty =>
  rw [not_not.mp empty, length_nil, collect_zero]
  split
  · unfold Post.next
    dsimp only
    rw [length_nil, collect_zero, ite_self]
  · rfl

/-- A `recvmsg` announces the descriptors of all messages that it opens, or none. -/
theorem Filed.receive {post changed passcred result} (filed : Filed post own.packets own.fds)
    (prepared : readMsghdrInfo buffer = .ok (nameLen, iovSize, cleared))
    (room : wordSize + nameLen + wordSize + iovSize ≤ buffer.length) (few : own.fds.length < 2 ^ 64)
    (attends : post.obtained.length = post.announced.length ∨
      wordSize + nameLen + wordSize + iovSize + (cmsgHeaderLen + wordSize) ≤ buffer.length)
    (done : own.serializeToMsgstream cleared nameLen iovSize passcred = some (changed, result)) :
    ∃ reply length, result = .ok (.message reply length) ∧
      (rightsOf reply length = 0 ∨ rightsOf reply length =
        (consume (payloadOf reply).length post.letters).1.length) ∧
      Filed (post.collect (payloadOf reply).length (rightsOf reply length))
        changed.packets changed.fds := by
  obtain ⟨left, count⟩ := collectLoop_consumes filed.1 iovSize none
  -- There are as many descriptors in the queue as are counted.
  have within : (consume (collectLoop iovSize none own.packets).payload.length
      post.letters).1.length ≤ own.fds.length := by
    obtain ⟨_, owed, _, queue⟩ := filed
    rw [queue, ← consume_split (collectLoop iovSize none own.packets).payload.length]
    simp only [length_append]
    omega
  have counted : countFds (collectLoop iovSize none own.packets).ancillary =
      (consume (collectLoop iovSize none own.packets).payload.length post.letters).1.length := by
    rw [countFds_eq, count, Nat.mod_eq_of_lt (within.trans_lt few)]
  cases serialized_of_done prepared room done with
  | announced shown announced =>
    refine ⟨_, _, rfl, .inr (by rw [announced, shown, counted]), ?_⟩
    rw [shown, announced]
    exact filed.announce left counted
  | dropped _ tight shown none =>
    refine ⟨_, _, rfl, .inl none, ?_⟩
    rw [shown, none, counted]
    exact filed.drop left (attends.resolve_right (Nat.not_le_of_lt tight))
  | failed short =>
    omega

theorem Posted.move {after post} (move : Move this event output after)
    (sound : Net.Sound (net this)) (hands : Hands this event = true)
    (announces : Announces sender post event = true)
    (attends : Attends sender post this event = true) (posted : Posted sender post (net this)) :
    Posted sender (post.next sender this event output) after := by
  have asks : ∀ {id : Nat} {own : Connection}, Asks id event →
      (net this).ends id = some (.linked own) → own.peer ≠ sender →
      post.next sender this event output = post := by
    intro id own asks found elsewhere
    apply asks.next
    intro faces
    obtain ⟨_, present, peer⟩ := linked_iff.mp faces
    cases found.symm.trans present
    exact elsewhere peer
  -- A packet is put where those of its writer wait.
  have mailed : ∀ {id place : Nat} {old changed : End} {packet : DataPacket},
      Sends id packet event output → (net this).ends place = some old →
      old.sender place = id → changed.sender place = id →
      changed.queue = old.queue ++ [packet] → changed.fds = old.fds →
      Posted sender (post.next sender this event output) ((net this).set place changed) := by
    intro id place old changed packet sends found writer kept queue fds
    have delivers := sends.delivers hands
    obtain ⟨something, _, _⟩ := sends.observed delivers
    rw [sends.next delivers]
    refine posted.replace sound found (kept.trans writer.symm) ?_ ?_
    · intro faces
      obtain rfl : id = sender := writer.symm.trans faces
      obtain ⟨taken, whole, counted⟩ := sends.announces announces
      rw [if_pos rfl, queue, fds]
      exact (posted.at_end found faces).mail something taken whole counted
    · intro elsewhere
      rw [if_neg (writer ▸ Ne.symm elsewhere)]
  cases move with
  | idle silent more =>
    rw [silent.next]
    exact ⟨posted.linked, posted.idle, fun above => posted.unused (more.trans above),
      posted.obtained, posted.single⟩
  | opened silent fresh =>
    rw [silent.next]
    apply posted.add sound
    rcases fresh with rfl | ⟨peer, rfl⟩ <;> rfl
  | @restarted id _ _ _ client _ _ found unconnected read issued elsewhere =>
    have nothing := KeepsParked.nothing hands found unconnected read issued elsewhere
    have idle := idle_of_getSocket found unconnected
    refine posted.replace sound idle rfl ?_ (fun _ => rfl)
    rintro rfl
    have filed := posted.idle idle
    rw [nothing] at filed
    exact filed
  | sent found facing sends =>
    obtain ⟨_, equal, back⟩ := sound.facing found facing
    cases equal
    exact mailed sends facing back back rfl rfl
  | parked found sends => exact mailed sends found rfl rfl rfl rfl
  | @passed id newFds posted_ own other found facing =>
    obtain ⟨quiet, _⟩ := Bool.and_eq_true_iff.mp hands
    cases Option.isNone_iff_eq_none.mp quiet
    obtain ⟨_, equal, back⟩ := sound.facing found facing
    cases equal
    have next : post.next sender this (.sendfd id (.ok newFds) none)
        (some (told none (.ok (.count newFds.length)))) =
          if id = sender then post.pass newFds else post := by
      unfold Post.next told
      dsimp only
      rw [take_length]
    rw [next]
    refine posted.replace sound facing rfl ?_ ?_
    · intro faces
      rw [if_pos (back.symm.trans faces)]
      exact (posted.linked facing faces).pass newFds
    · intro elsewhere
      rw [if_neg (back ▸ elsewhere)]
  | strayed idle facing sends =>
    have delivers := sends.delivers hands
    obtain ⟨_, addressed, _⟩ := sends.observed delivers
    rw [not_addressed idle facing] at addressed
    cases addressed
  | misdirected idle facing =>
    obtain ⟨_, addressed⟩ := Bool.and_eq_true_iff.mp hands
    rw [not_addressed idle facing] at addressed
    cases addressed
  | @read id length flags own found =>
    refine posted.replace sound found rfl ?_ (fun elsewhere => asks .read found elsewhere)
    intro faces
    have facing := linked_iff.mpr ⟨own, found, faces⟩
    rw [next_read facing]
    apply (posted.linked found faces).read
    simpa [Attends, facing] using attends
  | @received id noWait buffer own passcred nameLen iovSize cleared changed result found _
      prepared done =>
      have peer : changed.peer = own.peer := by rw [of_serializeToMsgstream done]
      refine posted.replace sound found peer ?_ (fun elsewhere => asks .recvmsg found elsewhere)
      intro faces
      have facing := linked_iff.mpr ⟨own, found, faces⟩
      obtain ⟨room, few⟩ := Fits.room hands found prepared
      have settled := Attends.recvmsg attends facing prepared
      obtain ⟨reply, length, rfl, _, filed⟩ :=
        (posted.linked found faces).receive prepared room few settled done
      have next : post.next sender this (.recvmsg id noWait buffer)
          (some (.ok (.message reply length))) =
            post.collect (payloadOf reply).length (rightsOf reply length) := if_pos facing
      rw [next]
      exact filed
  | @obtained id _ _ own taken rest found queue obtains =>
    have reads : Asks id event := by
      cases obtains
      · exact .dupRecvfd
      · exact .recvfd
    refine posted.replace sound found rfl ?_ (fun elsewhere => asks reads found elsewhere)
    intro faces
    have facing := linked_iff.mpr ⟨own, found, faces⟩
    have filed := posted.linked found faces
    cases obtains with
    | @dup fd =>
      have next : post.next sender this (.dupRecvfd id) (some (.ok (.fds [fd]))) =
          post.take [fd] := if_pos facing
      rw [next]
      apply filed.take queue
      simpa [Attends, facing] using attends
    | recvfd =>
      cases hands
      have next : post.next sender this (.recvfd id taken.length true)
          (some (.ok (.fds taken))) = post.take taken := if_pos facing
      change Filed (post.next sender this (.recvfd id taken.length true)
        (some (.ok (.fds taken)))) own.packets rest
      rw [next]
      apply filed.take queue
      simpa [Attends, facing] using attends
  | joined joins => exact posted.joins joins sound
  | parted => exact posted.part sound

theorem post_step {history transition} : post sender (history ++ [transition]) =
      (post sender history).next sender transition.before transition.event transition.output := by
  unfold post
  rw [foldl_append]
  rfl

theorem follows_split {history rule later transition}
    (follows : Follows sender rule .empty (history ++ transition :: later) = true) :
    Follows sender rule .empty history = true ∧ rule (post sender history) transition = true := by
  unfold post
  generalize empty = start at follows ⊢
  induction history generalizing start with
  | nil => exact ⟨rfl, (Bool.and_eq_true_iff.mp follows).1⟩
  | cons first rest ih =>
    obtain ⟨now, later⟩ := Bool.and_eq_true_iff.mp follows
    obtain ⟨before, then_⟩ := ih _ later
    exact ⟨Bool.and_eq_true_iff.mpr ⟨now, before⟩, then_⟩

theorem undisturbed_posted {history state} (run : stream.Run Undisturbed history state)
    (announcing : Announcing sender history = true) (attending : Attending sender history = true) :
    Posted sender (post sender history) (net state) := by
  induction run with
  | start =>
    exact ⟨fun found => absurd found ends_start, fun found => absurd found ends_start,
      fun _ => rfl, prefix_refl _, fun found => absurd found ends_start⟩
  | @step history before event output after earlier undisturbed stepped ih =>
    obtain ⟨announced, announces⟩ := follows_split announcing
    obtain ⟨attended, attends⟩ := follows_split attending
    obtain ⟨sound, move⟩ :=
      orderly_move (fun _ _ undisturbed => undisturbed.1) earlier undisturbed stepped
    rw [post_step]
    have posted := ih announced attended
    exact posted.move move sound undisturbed.2 announces attends

theorem Post.next_grows {post : Post} {before} :
    post.announced <+: (post.next sender before event output).announced ∧
      post.obtained <+: (post.next sender before event output).obtained := by
  have same : post.announced <+: post.announced ∧ post.obtained <+: post.obtained :=
    ⟨prefix_refl _, prefix_refl _⟩
  have mail : ∀ size, post.announced <+: (post.mail size).announced ∧
      post.obtained <+: (post.mail size).obtained := by
    intro size
    unfold mail
    split <;> exact same
  have collect : ∀ size count, post.announced <+: (post.collect size count).announced ∧
      post.obtained <+: (post.collect size count).obtained :=
    fun _ _ => ⟨prefix_append _ _, prefix_refl _⟩
  have take : ∀ fds, post.announced <+: (post.take fds).announced ∧
      post.obtained <+: (post.take fds).obtained :=
    fun _ => ⟨prefix_refl _, prefix_append _ _⟩
  unfold next
  split
  · split <;> exact same
  · exact mail _
  · exact mail _
  · split
    · exact collect _ _
    · exact same
  · split
    · exact collect _ _
    · exact same
  · split
    · exact take _
    · exact same
  · split
    · exact take _
    · exact same
  · exact same

theorem post_grows (earlier later : List (Transition UdsStreamScheme Event (Result Reply))) :
    (post sender earlier).announced <+: (post sender (earlier ++ later)).announced ∧
      (post sender earlier).obtained <+: (post sender (earlier ++ later)).obtained := by
  unfold post
  rw [foldl_append]
  generalize foldl _ empty earlier = start
  induction later generalizing start with
  | nil => exact ⟨prefix_refl _, prefix_refl _⟩
  | cons transition rest ih =>
    obtain ⟨announced, obtained⟩ := next_grows
    obtain ⟨moreAnnounced, moreObtained⟩ := ih _
    exact ⟨announced.trans moreAnnounced, obtained.trans moreObtained⟩

theorem rightsOf_eof {rest} : rightsOf (replicate (2 * wordSize) 0 ++ rest) (2 * wordSize) = 0 := by
  have laidOut : LaidOut (replicate (2 * wordSize) 0 ++ rest) [] [] [] := ⟨rest, rfl⟩
  exact laidOut.rightsOf (by decide) (by decide)

theorem rights_of_posted {receiver post after reply} (posted : Posted sender post (net this))
    (facing : linked this receiver = some sender)
    (hands : Hands this (.recvmsg receiver noWait buffer) = true)
    (attends : Attends sender post this (.recvmsg receiver noWait buffer) = true)
    (stepped : stream.step this (.recvmsg receiver noWait buffer) =
      some (after, some (.ok (.message reply length)))) (positive : 0 < rightsOf reply length) :
    rightsOf reply length = (consume (payloadOf reply).length post.letters).1.length := by
  obtain ⟨own, found, faces⟩ := linked_iff.mp facing
  obtain ⟨result, same, told⟩ := step_recvmsg found stepped
  have answer := Option.some.inj same
  cases told with
  | eof =>
    unfold writeEof at answer
    split at answer
    · cases answer
    · cases answer
      rw [rightsOf_eof] at positive
      cases positive
  | later => cases answer
  | short => cases answer
  | message prepared done =>
    obtain ⟨room, few⟩ := Fits.room hands found prepared
    have settled := Attends.recvmsg attends facing prepared
    obtain ⟨_, _, equal, none | all, _⟩ :=
      (posted.linked found faces).receive prepared room few settled done
    · cases answer.trans equal
      omega
    · cases answer.trans equal
      exact all

/-- In an undisturbed run, where a sender announces what it passes and its peer takes
descriptors in turn: what the peer obtained is what it was told about, in order; a
`recvmsg` that announces descriptors announces those of the messages it returns, and
they are the next that the peer obtains once it has obtained all before; and its
queue holds no others than those it is still to obtain, those of unread messages and
those that were passed since. -/
theorem stream_descriptors {history : List (Transition UdsStreamScheme Event (Result Reply))}
    {state : UdsStreamScheme} (run : stream.Run Undisturbed history state) (sender : Nat)
    (announcing : Announcing sender history = true) (attending : Attending sender history = true) :
    (post sender history).obtained <+: (post sender history).announced ∧
    (∀ earlier transition later, history = earlier ++ transition :: later →
      ∀ receiver noWait buffer reply length,
        transition.event = .recvmsg receiver noWait buffer →
        transition.output = some (.ok (.message reply length)) →
        linked transition.before receiver = some sender → 0 < rightsOf reply length →
        rightsOf reply length =
          (consume (payloadOf reply).length (post sender earlier).letters).1.length ∧
        ((post sender earlier).obtained = (post sender earlier).announced →
          ∃ next, (post sender history).obtained = (post sender earlier).obtained ++ next ∧
            (next <+: (consume (payloadOf reply).length (post sender earlier).letters).1 ∨
              (consume (payloadOf reply).length (post sender earlier).letters).1 <+: next))) ∧
    (∀ receiver own, (net state).ends receiver = some (.linked own) → own.peer = sender →
      own.fds = (post sender history).announced.drop (post sender history).obtained.length ++
        ((post sender history).letters.flatMap Letter.fds ++ (post sender history).loose)) := by
  have posted := undisturbed_posted run announcing attending
  refine ⟨posted.obtained, ?_, ?_⟩
  · rintro earlier transition later rfl receiver noWait buffer reply length asked answered facing
      positive
    obtain ⟨earlierRun, stepped, undisturbed, -⟩ := run.split rfl
    obtain ⟨announced, _⟩ := follows_split announcing
    obtain ⟨attended, attends⟩ := follows_split attending
    have earlierPosted := undisturbed_posted earlierRun announced attended
    rw [asked, answered] at stepped
    rw [asked] at attends undisturbed
    have counted := rights_of_posted earlierPosted facing undisturbed.2 attends stepped positive
    refine ⟨counted, ?_⟩
    intro settled
    -- After the message its descriptors are announced, and nothing is taken back.
    have announced : (post sender (earlier ++ [transition])).announced =
        (post sender earlier).announced ++
          (consume (payloadOf reply).length (post sender earlier).letters).1 := by
      rw [post_step, asked, answered]
      have next : (post sender earlier).next sender transition.before
          (.recvmsg receiver noWait buffer) (some (.ok (.message reply length))) =
            (post sender earlier).collect (payloadOf reply).length (rightsOf reply length) :=
        if_pos facing
      rw [next]
      unfold collect
      rw [if_neg positive.ne']
    obtain ⟨more, grown⟩ := (post_grows (earlier ++ [transition]) later).1
    rw [append_assoc, singleton_append, announced, append_assoc] at grown
    obtain ⟨next, obtained⟩ := (post_grows earlier (transition :: later)).2
    refine ⟨next, obtained.symm, ?_⟩
    have order := posted.obtained
    rw [← grown, ← obtained, settled] at order
    exact prefix_or_prefix_of_prefix ((prefix_append_right_inj _).mp order) (prefix_append _ more)
  · intro receiver own found faces
    obtain ⟨_, owed, announced, queue⟩ := posted.linked found faces
    rw [announced, drop_left' rfl]
    exact queue

/-- A message of one byte that announces one descriptor. -/
def messageWithRights (byte : UInt8) : List UInt8 :=
  leBytes 8 1 ++ [byte] ++ leBytes 4 solSocket ++ leBytes 4 scmRights ++ leBytes 8 8 ++ leBytes 8 1

/-- A buffer for a message of one byte, with so much room for control data. -/
def bufferFor (control : Nat) : List UInt8 :=
  leBytes 8 0 ++ leBytes 8 1 ++ leBytes 8 control ++ replicate (control - 7) 0

/-- A client is accepted as socket 4 and sends two messages with a descriptor each. -/
def passTwo : List Event :=
  connectFirst ++ [.dupListen 1 (fun _ => none),
    .sendfd 3 (.ok [10]) none, .sendmsg 3 false (messageWithRights 0x78) (.ok ⟨1, 0, 0⟩) none,
    .sendfd 3 (.ok [11]) none, .sendmsg 3 false (messageWithRights 0x79) (.ok ⟨1, 0, 0⟩) none]

/-- The first message is received with its descriptor; there is no room for that of
the second one, which is dropped. -/
theorem stream_descriptors_dropped :
    ∃ history state, stream.Run Undisturbed history state ∧ Announcing 3 history = true ∧
      Attending 3 history = true ∧ (post 3 history).announced = [10] ∧
      (post 3 history).obtained = [10] ∧
      (post 3 history).obtained <+: (post 3 history).announced ∧
      ∀ own, (net state).ends 4 = some (.linked own) → own.peer = 3 → own.fds = [] := by
  have run := stream.run_replay Undisturbed (passTwo ++ [.recvmsg 4 false (bufferFor 24), .recvfd
    4 1 true, .recvmsg 4 false (bufferFor 7)]) (by decide +kernel)
  obtain ⟨order, _, queue⟩ := stream_descriptors run 3 rfl rfl
  exact ⟨_, _, run, rfl, rfl, rfl, rfl, order, queue 4⟩

/-- The first message is read with `read`: its descriptor stays in the queue and is
handed out for the second message. -/
theorem read_shifts_descriptors :
    ∃ history state, stream.Run Undisturbed history state ∧ Announcing 3 history = true ∧
      (post 3 history).announced = [11] ∧ (post 3 history).obtained = [10] := by
  have run := stream.run_replay Undisturbed (passTwo ++ [.read 4 1 0,
    .recvmsg 4 false (bufferFor 24), .recvfd 4 1 true]) (by decide +kernel)
  exact ⟨_, _, run, rfl, rfl, rfl⟩

end EosBase.Uds.Stream
