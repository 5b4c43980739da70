import EosBase.Uds.StreamTraffic
import Mathlib.Data.List.Forall2

/-!
# Messages with descriptors

Descriptors and packets travel in two queues that are matched by counting.  A
`Post` is what the two sides know: the messages on their way, each with the
descriptors that were passed before it, and what was announced and obtained.
`Posted` says that the queues of the receiver hold the post of the sender.
-/

namespace EosBase.Uds.Stream

open Redox UdsStreamScheme List Stream.DataPacket Connection

/-- A message on its way: the bytes that are not read yet, and the descriptors that
the receiver has not been told about. -/
structure Letter where
  unread : Nat
  fds : List Fd

/-- So many bytes are read: the descriptors of the messages that this opens, and
what is left. -/
def consume : Nat → List Letter → List Fd × List Letter
  | _, [] => ([], [])
  | 0, letters => ([], letters)
  | size + 1, letter :: rest =>
    if letter.unread ≤ size + 1 then
      let later := consume (size + 1 - letter.unread) rest
      (letter.fds ++ later.1, later.2)
    else
      (letter.fds, ⟨letter.unread - (size + 1), []⟩ :: rest)

variable {letters : List Letter} {size : Nat} {packets : List DataPacket}

@[simp] theorem consume_zero : consume 0 letters = ([], letters) := by
  cases letters <;> rfl

@[simp]
theorem consume_nil {size} : consume size [] = ([], []) := by
  cases size <;> rfl

theorem consume_cons {letter} (some : 0 < size) {rest} : consume size (letter :: rest) =
      if letter.unread ≤ size then (letter.fds ++ (consume (size - letter.unread) rest).1,
          (consume (size - letter.unread) rest).2) else
        (letter.fds, ⟨letter.unread - size, []⟩ :: rest) := by
  cases size with
  | zero => cases some
  | succ size => rfl

theorem consume_split (size : Nat) :
    (consume size letters).1 ++ (consume size letters).2.flatMap Letter.fds =
      letters.flatMap Letter.fds := by
  induction letters generalizing size with
  | nil =>
    rfl
  | cons letter rest ih =>
    rcases Nat.eq_zero_or_pos size with rfl | some
    · rfl
    rw [consume_cons some, flatMap_cons]
    split
    · rw [append_assoc, ih]
    · rfl

theorem consume_nil_of_le {small large} (le : small ≤ large)
    (nothing : (consume large letters).1 = []) : (consume small letters).1 = [] := by
  induction letters generalizing small large with
  | nil => rw [consume_nil]
  | cons letter rest ih =>
    rcases Nat.eq_zero_or_pos small with rfl | some
    · rw [consume_zero]
    rw [consume_cons (some.trans_le le)] at nothing
    rw [consume_cons some]
    split at nothing
    next whole =>
      obtain ⟨none, later⟩ := append_eq_nil_iff.mp nothing
      split
      · rw [none, ih (Nat.sub_le_sub_right le _) later]
        rfl
      · exact none
    next part =>
    rw [if_neg (by omega)]
    exact nothing

def rights (packet : DataPacket) : Nat :=
  if packet.ancillaryTaken then 0 else packet.ancillaryData.numFds

structure Sealed (packet : DataPacket) (letter : Letter) : Prop where
  unread : (remaining packet).length = letter.unread
  something : 0 < letter.unread
  fds : letter.fds.length = rights packet
  /-- A packet that was begun has been announced or dropped. -/
  begun : packet.readOffset = 0 ∨ packet.ancillaryTaken = true

/-- What the loops change in a packet, but for its name. -/
def mark (packet : DataPacket) : List UInt8 × Nat × Bool × Nat :=
  (packet.payload, packet.readOffset, packet.ancillaryTaken, packet.ancillaryData.numFds)

theorem Sealed.of_mark {letter packet other}
    (isSealed : Sealed packet letter) (same : mark other = mark packet) : Sealed other letter := by
  unfold mark at same
  obtain ⟨payload, offset, taken, numFds⟩ : other.payload = packet.payload ∧
      other.readOffset = packet.readOffset ∧ other.ancillaryTaken = packet.ancillaryTaken ∧
      other.ancillaryData.numFds = packet.ancillaryData.numFds := by
    simpa using same
  constructor
  · unfold remaining
    rw [payload, offset]
    exact isSealed.unread
  · exact isSealed.something
  · unfold rights
    rw [taken, numFds]
    exact isSealed.fds
  · rw [offset, taken]
    exact isSealed.begun

section

variable (sealed : List.Forall₂ Sealed packets letters)

include sealed

theorem sealed_of_marks {others} (same : others.map mark = packets.map mark) :
    List.Forall₂ Sealed others letters := by
  induction sealed generalizing others with
  | nil =>
    rw [map_eq_nil_iff.mp same]
    exact .nil
  | cons isSealed _ ih =>
    obtain ⟨other, rest, rfl, first, later⟩ := map_eq_cons_iff.mp same
    exact .cons (isSealed.of_mark first) (ih later)

theorem full_of_sealed : Full packets := by
  induction sealed with
  | nil => simp [Full]
  | cons isSealed _ ih =>
    intro packet member
    rcases mem_cons.mp member with rfl | later
    · apply length_pos_iff.mp
      rw [isSealed.unread]
      exact isSealed.something
    · exact ih packet later

theorem collectLoop_marks (room : Nat) (name : Option Name) :
    (readLoop room packets).2.map mark =
      (collectLoop room name packets).packets.map mark := by
  induction sealed generalizing room name with
  | nil => rfl
  | @cons packet letter rest letters isSealed _ ih =>
    unfold collectLoop readLoop
    dsimp only
    split
    · rfl
    split
    · exact ih _ _
    have taken : (packet.ancillaryTaken || packet.readOffset == 0) = true := by
      rcases isSealed.begun with offset | taken
      · simp [offset]
      · simp [taken]
    rw [taken]
    split <;> rfl

/-- What `recvmsg` collects opens the letters of the packets. -/
theorem collectLoop_consumes (room : Nat) (name : Option Name) :
    List.Forall₂ Sealed (collectLoop room name packets).packets
        (consume (collectLoop room name packets).payload.length letters).2 ∧
      ((collectLoop room name packets).ancillary.map AncillaryData.numFds).sum =
        (consume (collectLoop room name packets).payload.length letters).1.length := by
  induction sealed generalizing room name with
  | nil =>
    exact ⟨.nil, rfl⟩
  | @cons packet letter rest letters isSealed later ih =>
    obtain ⟨unread, something, fds, begun⟩ := isSealed
    have size : (remaining packet).length = packet.payload.length - packet.readOffset := by
      unfold remaining
      rw [length_drop]
    -- What is announced for a packet is what it still announces.
    have announced : ∀ kept : Option Name, ((if packet.ancillaryTaken = true then [] else
          [if packet.ancillaryTaken = true then packet.ancillaryData else
            { packet.ancillaryData with name := kept }]).map AncillaryData.numFds).sum =
          letter.fds.length := by
      rw [fds]
      unfold rights
      cases packet.ancillaryTaken <;> simp
    unfold collectLoop
    dsimp only
    split
    next none =>
      exact ⟨.cons ⟨unread, something, fds, begun⟩ later, rfl⟩
    next copies =>
    split
    next finished =>
      obtain ⟨left, count⟩ := ih (room - min (remaining packet).length room)
        (if packet.ancillaryTaken = true then name else name <|> packet.ancillaryData.name)
      have whole : ((remaining packet).take
          (min (remaining packet).length room)).length = letter.unread := by
        rw [length_take]
        omega
      rw [length_append, whole, consume_cons (by omega), if_pos (Nat.le_add_right _ _),
        Nat.add_sub_cancel_left]
      refine ⟨left, ?_⟩
      rw [map_append, sum_append, announced, count, length_append]
    next partly =>
    have taken : ((remaining packet).take (min (remaining packet).length room)).length = room := by
      rw [length_take]
      omega
    have short : ¬ letter.unread ≤ room := by omega
    rw [taken, consume_cons (by omega), if_neg short]
    refine ⟨.cons ⟨?_, ?_, ?_, .inr rfl⟩ later, announced _⟩
    · change (packet.payload.drop (packet.readOffset + min (remaining packet).length room)).length =
          letter.unread - room
      rw [length_drop]
      omega
    · dsimp only
      omega
    · rfl

end

/-- What a socket sends to its peer: messages on their way, descriptors that were
passed since the last one, and the descriptors that its peer was told about and
obtained so far. -/
structure Post where
  letters : List Letter
  loose : List Fd
  announced : List Fd
  obtained : List Fd

namespace Post

def empty : Post := ⟨[], [], [], []⟩

def pass (post : Post) (fds : List Fd) : Post :=
  { post with loose := post.loose ++ fds }

def mail (post : Post) (size : Nat) : Post :=
  if size = 0 then post
  else { post with letters := post.letters ++ [⟨size, post.loose⟩], loose := [] }

/-- Bytes are read, with a number of descriptors announced. -/
def collect (post : Post) (size announcedFds : Nat) : Post :=
  { post with
    letters := (consume size post.letters).2
    announced := post.announced ++
      if announcedFds = 0 then [] else (consume size post.letters).1 }

def take (post : Post) (fds : List Fd) : Post :=
  { post with obtained := post.obtained ++ fds }

/-- What a request of the sender or of its peer does to the post. -/
def next (sender : Nat) (post : Post) (before : UdsStreamScheme) (event : Event)
    (output : Option (Result Reply)) : Post :=
  match event, output with
  | .sendfd id (.ok newFds) _, some (.ok (.count count)) =>
    if id = sender then post.pass (newFds.take count) else post
  | .write .., _ => post.mail (acceptedFrom sender event output).length
  | .sendmsg .., _ => post.mail (acceptedFrom sender event output).length
  | .read id _ _, some (.ok (.bytes data)) =>
    if linked before id = some sender then post.collect data.length 0 else post
  | .recvmsg id _ _, some (.ok (.message buffer length)) =>
    if linked before id = some sender then
      post.collect (payloadOf buffer).length (rightsOf buffer length)
    else post
  | .dupRecvfd id, some (.ok (.fds fds)) =>
    if linked before id = some sender then post.take fds else post
  | .recvfd id _ _, some (.ok (.fds fds)) =>
    if linked before id = some sender then post.take fds else post
  | _, _ => post

end Post

def post (sender : Nat) (history : List (Transition UdsStreamScheme Event (Result Reply))) : Post :=
  history.foldl
    (fun post transition =>
      post.next sender transition.before transition.event transition.output) .empty

/-- The queues of the receiver: first the descriptors that it was told about and
has not obtained, then those of the messages, then those passed since. -/
def Filed (post : Post) (packets : List DataPacket) (fds : List Fd) : Prop :=
  List.Forall₂ Sealed packets post.letters ∧
    ∃ owed, post.announced = post.obtained ++ owed ∧
      fds = owed ++ (post.letters.flatMap Letter.fds ++ post.loose)

namespace Filed

variable {post : Post} {fds : List Fd}

section

variable (filed : Filed post packets fds) {left : List DataPacket}

include filed

theorem obtained : post.obtained <+: post.announced := by
  obtain ⟨_, owed, announced, _⟩ := filed
  exact ⟨owed, announced.symm⟩

theorem pass (newFds : List Fd) : Filed (post.pass newFds) packets (fds ++ newFds) := by
  obtain ⟨sealed, owed, announced, rfl⟩ := filed
  refine ⟨sealed, owed, announced, ?_⟩
  simp [Post.pass]

theorem mail {packet} (something : remaining packet ≠ [])
    (untaken : packet.ancillaryTaken = false) (whole : packet.readOffset = 0)
    (announces : packet.ancillaryData.numFds = post.loose.length) :
    Filed (post.mail (remaining packet).length) (packets ++ [packet]) fds := by
  obtain ⟨sealed, owed, announced, rfl⟩ := filed
  have positive := length_pos_iff.mpr something
  unfold Post.mail
  rw [if_neg positive.ne']
  have isSealed : Sealed packet ⟨(remaining packet).length, post.loose⟩ :=
    ⟨rfl, positive, by simp [rights, untaken, announces], .inl whole⟩
  refine ⟨rel_append sealed (.cons isSealed .nil), owed, announced, ?_⟩
  simp

theorem take {taken rest} (queue : fds = taken ++ rest)
    (owed : post.obtained.length + taken.length ≤ post.announced.length) :
    Filed (post.take taken) packets rest := by
  obtain ⟨sealed, owing, announced, rfl⟩ := filed
  rw [announced, length_append] at owed
  obtain ⟨later, rfl⟩ : taken <+: owing := by
    apply prefix_of_prefix_length_le (queue ▸ prefix_append taken rest) (prefix_append owing _)
    omega
  refine ⟨sealed, later, ?_, ?_⟩
  · unfold Post.take
    rw [announced, append_assoc]
  · rw [append_assoc] at queue
    exact (append_cancel_left queue).symm

section

variable (sealed : List.Forall₂ Sealed left (consume size post.letters).2)

include sealed

theorem announce {count} (counted : count = (consume size post.letters).1.length) :
    Filed (post.collect size count) left fds := by
  obtain ⟨_, owed, announced, rfl⟩ := filed
  have all : (if count = 0 then [] else (consume size post.letters).1) =
      (consume size post.letters).1 := by
    split
    next none =>
      rw [none] at counted
      exact (length_eq_zero_iff.mp counted.symm).symm
    · rfl
  refine ⟨sealed, owed ++ (consume size post.letters).1, ?_, ?_⟩
  · unfold Post.collect
    rw [all, announced, append_assoc]
  · rw [← consume_split size]
    simp [Post.collect]

theorem drop (settled : post.obtained.length = post.announced.length) :
    Filed (post.collect size 0) left (fds.drop (consume size post.letters).1.length) := by
  obtain ⟨_, owed, announced, rfl⟩ := filed
  have nothing : owed = [] := by
    rw [announced, length_append] at settled
    apply length_eq_zero_iff.mp
    omega
  subst nothing
  refine ⟨sealed, [], ?_, ?_⟩
  · unfold Post.collect
    rw [if_pos rfl, announced, append_nil]
  · rw [nil_append, ← consume_split size, append_assoc, drop_left' rfl]
    rfl

end

end

end Filed

/-- The post of a sender lies with the end that faces it, or is parked. -/
structure Posted (sender : Nat) (post : Post) (net : Net) : Prop where
  linked : ∀ {id connection}, net.ends id = some (.linked connection) →
    connection.peer = sender → Filed post connection.packets connection.fds
  idle : ∀ {own}, net.ends sender = some (.idle own) → Filed post (parked own) []
  unused : net.next ≤ sender → post = .empty
  obtained : post.obtained <+: post.announced
  single : ∀ {first second one two}, net.ends first = some (.linked one) → one.peer = sender →
    net.ends second = some (.linked two) → two.peer = sender → first = second

theorem Filed.nothing : Filed .empty [] [] :=
  ⟨.nil, [], rfl, rfl⟩

def End.fds : End → List Fd
  | .linked connection => connection.fds
  | .idle _ => []

namespace Posted

variable {sender id : Nat} {earlier later : Post} {net after : Net}

theorem of_home (home : Nat) (all : ∀ {id seen}, net.ends id = some seen → seen.sender id = sender →
      id = home ∧ Filed later seen.queue seen.fds)
    (unused : net.next ≤ sender → later = .empty) (obtained : later.obtained <+: later.announced) :
    Posted sender later net where
  linked found faces := (all found faces).2
  idle found := (all found rfl).2
  unused := unused
  obtained := obtained
  single here faces there faced := (all here faces).1.trans (all there faced).1.symm

section

variable (posted : Posted sender earlier net)

include posted

theorem at_end {seen} (found : net.ends id = some seen) (faces : seen.sender id = sender) :
    Filed earlier seen.queue seen.fds := by
  cases seen with
  | linked => exact posted.linked found faces
  | idle =>
    subst faces
    exact posted.idle found

variable (sound : Net.Sound net)

include sound

/-- The post is at one end, if at any. -/
theorem home : ∃ home, ∀ {id seen}, net.ends id = some seen → seen.sender id = sender →
    id = home ∧ Filed earlier seen.queue seen.fds := by
  by_cases faced : ∃ id seen, net.ends id = some seen ∧ seen.sender id = sender
  · obtain ⟨home, there, present, faced⟩ := faced
    refine ⟨home, fun {id here} found faces => ⟨?_, posted.at_end found faces⟩⟩
    cases there with
    | idle =>
      subst faced
      exact sound.reader_eq present found faces
    | linked =>
      cases here with
      | idle =>
        subst faces
        exact (sound.reader_eq found present faced).symm
      | linked => exact posted.single found faces present faced
  · exact ⟨0, fun found faces => absurd ⟨_, _, found, faces⟩ faced⟩

/-- One end gets other queues from the same sender. -/
theorem replace {old changed} (found : net.ends id = some old)
    (kept : changed.sender id = old.sender id)
    (filed : old.sender id = sender → Filed later changed.queue changed.fds)
    (same : old.sender id ≠ sender → later = earlier) :
    Posted sender later (net.set id changed) := by
  obtain ⟨home, all⟩ := posted.home sound
  refine of_home home ?_ ?_ ?_
  · intro other seen present faces
    rw [Net.ends_set] at present
    split at present
    next here =>
      cases present
      have faced := kept.symm.trans (here ▸ faces)
      exact ⟨here.trans (all found faced).1, filed faced⟩
    next different =>
    obtain ⟨atHome, queues⟩ := all present faces
    rw [same fun faced => different (atHome.trans (all found faced).1.symm)]
    exact ⟨atHome, queues⟩
  · intro above
    rw [same ((sound.sender_lt found).trans_le above).ne]
    exact posted.unused above
  · by_cases faces : old.sender id = sender
    · exact (filed faces).obtained
    · rw [same faces]
      exact posted.obtained

theorem add {new} (fresh : parked new = []) : Posted sender earlier (net.add (.idle new)) := by
  obtain ⟨home, all⟩ := posted.home sound
  refine of_home (if sender = net.next then sender else home) ?_
    (fun above => posted.unused (Nat.le_of_succ_le above)) posted.obtained
  intro other seen present faces
  rw [Net.ends_add] at present
  split at present
  next here =>
    cases present
    obtain rfl : other = sender := faces
    rw [if_pos here, posted.unused here.symm.le]
    refine ⟨rfl, ?_⟩
    rw [End.queue, fresh]
    exact .nothing
  · rw [if_neg (faces ▸ sound.sender_lt present).ne]
    exact all present faces

theorem join {own} (found : net.ends id = some (.idle (some own))) :
    Posted sender earlier (net.join id own) := by
  obtain ⟨home, all⟩ := posted.home sound
  refine of_home (if sender = id then net.next else if sender = net.next then id else home) ?_
    (fun above => posted.unused (Nat.le_of_succ_le above)) posted.obtained
  intro other seen present faces
  rw [Net.Sound.ends_join] at present
  split at present
  next new =>
    -- The new end gets what the client has parked.
    cases present
    obtain rfl : id = sender := faces
    rw [if_pos rfl]
    exact ⟨new, posted.idle found⟩
  split at present
  next client =>
    cases present
    obtain rfl : net.next = sender := faces
    rw [if_neg (sound.below found).ne', if_pos rfl, posted.unused le_rfl]
    refine ⟨client, ?_⟩
    rw [End.fds, (sound.clean found).1]
    exact .nothing
  next different =>
  have elsewhere : sender ≠ id := fun same =>
    different (sound.reader_eq found present (faces.trans same))
  rw [if_neg elsewhere, if_neg (faces ▸ sound.sender_lt present).ne]
  exact all present faces

theorem part : Posted sender earlier (net.part id) := by
  obtain ⟨home, all⟩ := posted.home sound
  refine of_home home ?_ (fun above => posted.unused (Net.next_part ▸ above)) posted.obtained
  intro other seen present faces
  obtain ⟨_, before, found, same | ⟨link, rfl, same⟩⟩ := Net.Sound.ends_part present
  · subst same
    exact all found faces
  · cases same
    have queues := all found faces
    exact queues

end

theorem joins (joins : Net.Joins net after) (posted : Posted sender earlier net)
    (sound : Net.Sound net) : Posted sender earlier after := by
  induction joins with
  | refl => exact posted
  | join found _ ih =>
    exact ih (posted.join sound found) (sound.join found)

end Posted

end EosBase.Uds.Stream
