import EosBase.Uds.Stream

/-!
# What the caller of `recvmsg` reads

The reply is written piece by piece into the caller's buffer: the name, the
payload, and the control messages, the descriptors first.  `payloadOf` and
`rightsOf` read it back.
-/

namespace EosBase.Uds

open Redox List MsgWriter Stream.Connection Nat

variable {offset : Nat} {data buffer : List UInt8} {iovSize size level cType : Nat}
  {writer : MsgWriter} {payload : List UInt8}

theorem length_overwrite (fits : offset + data.length ≤ buffer.length) :
    (overwrite buffer offset data).length = buffer.length := by
  simp only [overwrite, length_append, length_take, length_drop]
  omega

theorem take_overwrite (fits : offset + data.length ≤ buffer.length) :
    (overwrite buffer offset data).take (offset + data.length) = buffer.take offset ++ data := by
  have length : (buffer.take offset ++ data).length = offset + data.length := by
    simp only [length_append, length_take]
    omega
  exact take_left' length

namespace MsgWriter

/-- A writer has written some bytes into a buffer of some size. -/
structure Wrote (writer : MsgWriter) (bytes : List UInt8) (size : Nat) : Prop where
  size : writer.buffer.length = size
  count : writer.writtenLen = bytes.length
  bytes : writer.buffer.take bytes.length = bytes

def cmsg (level cType : Nat) (data : List UInt8) : List UInt8 :=
  leBytes 4 level ++ leBytes 4 cType ++ leBytes wordSize data.length ++ data

theorem length_cmsg : (cmsg level cType data).length = cmsgHeaderLen + data.length := by
  simp only [cmsg, length_append, length_leBytes]
  rfl

/-- What may stand behind the descriptors: credentials, or ones to the end. -/
inductive Trailer : List UInt8 → Prop where
  | none : Trailer []
  | credentials (data rest : List UInt8) :
      Trailer (cmsg solSocket scmCredentials data ++ rest)
  | ones (count : Nat) : Trailer (replicate count 1)

namespace Wrote

variable {bytes : List UInt8}

section

variable (wrote : Wrote writer bytes size)

include wrote

theorem le_size : bytes.length ≤ size := by
  have length := congrArg length wrote.bytes
  rw [length_take, wrote.size] at length
  omega

theorem split :
    writer.buffer = bytes ++ writer.buffer.drop bytes.length := by
  have whole := take_append_drop bytes.length writer.buffer
  rw [wrote.bytes] at whole
  exact whole.symm

theorem append (data : List UInt8) (count : Nat)
    (fits : bytes.length + data.length ≤ size) (moved : count = bytes.length + data.length) :
    Wrote ⟨overwrite writer.buffer writer.writtenLen data, count⟩ (bytes ++ data) size := by
  have room : writer.writtenLen + data.length ≤ writer.buffer.length := by
    rw [wrote.count, wrote.size]
    exact fits
  refine ⟨(length_overwrite room).trans wrote.size, ?_, ?_⟩
  · rw [length_append]
    exact moved
  · have taken := take_overwrite room
    rw [wrote.count, wrote.bytes] at taken
    rw [length_append, wrote.count]
    exact taken

end

/-- The name and its length; a name that is absent has length zero, which the
cleared buffer already says. -/
theorem writeName (cleared : buffer.take wordSize = leBytes wordSize 0) (name : Option Name)
    (nameBufSize : Nat) (scheme : Name) :
    ∃ shown, shown.length ≤ nameBufSize ∧
      Wrote ((new buffer).writeName name nameBufSize scheme)
        (leBytes wordSize shown.length ++ shown) buffer.length := by
  have room : wordSize ≤ buffer.length := by
    have length := congrArg length cleared
    rw [length_take, length_leBytes] at length
    omega
  unfold MsgWriter.writeName
  rw [if_neg (by simpa [MsgWriter.new] using room)]
  cases name with
  | none =>
    refine ⟨[], zero_le _, rfl, ?_, ?_⟩
    · simp [new]
    · simpa [new] using cleared
  | some name =>
    dsimp only [new]
    have bound : (fpathInner scheme name (min nameBufSize (buffer.length - 0 - wordSize))).length ≤
          min nameBufSize (buffer.length - 0 - wordSize) := by
      unfold fpathInner
      rw [length_take]
      exact min_le_left _ _
    generalize fpathInner scheme name (min nameBufSize (buffer.length - 0 - wordSize)) = shown
      at bound ⊢
    have within : 0 + wordSize + shown.length ≤ buffer.length := by omega
    have inner := length_overwrite within
    refine ⟨shown, by omega, ?_, ?_, ?_⟩
    · rw [length_overwrite, inner]
      rw [length_leBytes, inner]
      omega
    · simp only [length_append, length_leBytes]
      omega
    · have kept : (overwrite buffer (0 + wordSize) shown).drop wordSize =
          shown ++ buffer.drop (0 + wordSize + shown.length) := by
        unfold overwrite
        rw [append_assoc]
        apply drop_left'
        rw [length_take]
        omega
      simp only [zero_add] at kept ⊢
      have outer : overwrite (overwrite buffer wordSize shown) 0 (leBytes wordSize shown.length) =
          leBytes wordSize shown.length ++ shown ++ buffer.drop (wordSize + shown.length) := by
        rw [overwrite, take_zero, nil_append, length_leBytes, zero_add, kept, append_assoc]
      rw [outer]
      exact take_left' rfl

section

variable (wrote : Wrote writer bytes size)

include wrote

theorem writePayload (small : payload.length ≤ iovSize)
    (fits : bytes.length + wordSize + payload.length ≤ size) :
    Wrote (writer.writePayload payload payload.length iovSize)
      (bytes ++ (leBytes wordSize payload.length ++ payload)) size := by
  have room : ¬ writer.buffer.length < writer.writtenLen + wordSize := by
    rw [wrote.size, wrote.count]
    omega
  have announced := wrote.append (leBytes wordSize payload.length)
    (writer.writtenLen + wordSize) (by rw [length_leBytes]; omega)
    (by rw [length_leBytes, wrote.count])
  have whole := announced.append payload (writer.writtenLen + wordSize + payload.length)
    (by rw [length_append, length_leBytes]; omega)
    (by rw [length_append, length_leBytes, wrote.count])
  unfold MsgWriter.writePayload
  rw [if_neg room]
  have enough : ¬ (overwrite writer.buffer writer.writtenLen
      (leBytes wordSize payload.length)).length <
        writer.writtenLen + wordSize + payload.length := by
    have length := announced.size
    rw [length, wrote.count]
    omega
  rw [min_eq_right small, if_neg enough, take_length, ← append_assoc]
  exact whole

theorem writeCmsg (level cType : Nat) (data : List UInt8) :
    ((writer.writeCmsg level cType data).2 = true ∧
      Wrote (writer.writeCmsg level cType data).1 (bytes ++ cmsg level cType data) size) ∨
    ((writer.writeCmsg level cType data).2 = false ∧
      ∃ rest, rest < cmsgHeaderLen + data.length ∧ bytes.length + rest = size ∧
        Wrote (writer.writeCmsg level cType data).1 (bytes ++ replicate rest 1) size) := by
  have within := wrote.le_size
  unfold MsgWriter.writeCmsg
  dsimp only
  split
  next short =>
    refine .inr ⟨rfl, writer.buffer.length - writer.writtenLen, short, ?_, ?_⟩
    · rw [wrote.size, wrote.count]
      omega
    apply wrote.append
    · rw [length_replicate, wrote.size, wrote.count]
      omega
    · rw [length_replicate, wrote.count]
  next enough =>
  refine .inl ⟨rfl, ?_⟩
  rw [wrote.size, wrote.count] at enough
  apply wrote.append (cmsg level cType data)
  · rw [length_cmsg]
    omega
  · rw [length_cmsg, wrote.count]
    omega

theorem writeRights (numFds : Nat) : ((writer.writeRights numFds).2 = true ∧ numFds = 0 ∧
      Wrote (writer.writeRights numFds).1 bytes size) ∨
    ((writer.writeRights numFds).2 = true ∧ numFds ≠ 0 ∧ Wrote (writer.writeRights numFds).1
        (bytes ++ cmsg solSocket scmRights (leBytes wordSize numFds)) size) ∨
    ((writer.writeRights numFds).2 = false ∧ numFds ≠ 0 ∧
      ∃ rest, rest < cmsgHeaderLen + wordSize ∧ bytes.length + rest = size ∧
        Wrote (writer.writeRights numFds).1 (bytes ++ replicate rest 1) size) := by
  unfold MsgWriter.writeRights
  split
  next zero => exact .inl ⟨rfl, zero, wrote⟩
  next some =>
  rcases wrote.writeCmsg solSocket scmRights (leBytes wordSize numFds) with
    ⟨done, written⟩ | ⟨failed, rest, short, full, written⟩
  · exact .inr (.inl ⟨done, some, written⟩)
  · exact .inr (.inr ⟨failed, some, rest, short, full, written⟩)

theorem writeAllCredentials (ancillary : List AncillaryData) :
    ∃ more, Wrote (writeAllCredentials writer ancillary) (bytes ++ more) size ∧
      Trailer more := by
  induction ancillary generalizing writer bytes with
  | nil => exact ⟨[], by simpa [writeAllCredentials] using wrote, .none⟩
  | cons first rest ih =>
    unfold writeAllCredentials
    rcases wrote.writeCmsg solSocket scmCredentials
      (leBytes 4 first.cred.pid ++ leBytes 4 first.cred.uid ++ leBytes 4 first.cred.gid) with
      ⟨done, written⟩ | ⟨failed, count, _, _, written⟩
    · have success : (writer.writeCredentials first.cred).2 = true := done
      obtain ⟨more, final, _⟩ := ih written
      rw [append_assoc bytes] at final
      refine ⟨cmsg solSocket scmCredentials (leBytes 4 first.cred.pid ++
        leBytes 4 first.cred.uid ++ leBytes 4 first.cred.gid) ++ more, ?_, .credentials _ more⟩
      dsimp only
      rw [if_pos success]
      exact final
    · have failure : (writer.writeCredentials first.cred).2 = false := failed
      refine ⟨replicate count 1, ?_, .ones count⟩
      dsimp only
      rw [failure]
      exact written

end

end Wrote

end MsgWriter

def nameLenOf (buffer : List UInt8) : Nat :=
  ofLeBytes (buffer.take wordSize)

def payloadLenOf (buffer : List UInt8) : Nat :=
  ofLeBytes ((buffer.drop (wordSize + nameLenOf buffer)).take wordSize)

def payloadOf (buffer : List UInt8) : List UInt8 :=
  (buffer.drop (wordSize + nameLenOf buffer + wordSize)).take (payloadLenOf buffer)

/-- The descriptors that the first control message announces, if it does. -/
def announcedIn (control : List UInt8) : Nat :=
  if cmsgHeaderLen + wordSize ≤ control.length ∧ ofLeBytes (control.take 4) = solSocket ∧
      ofLeBytes ((control.drop 4).take 4) = scmRights then
    ofLeBytes ((control.drop cmsgHeaderLen).take wordSize)
  else
    0

/-- The descriptors that a message announces; so much of the buffer was written. -/
def rightsOf (buffer : List UInt8) (length : Nat) : Nat :=
  announcedIn ((buffer.take length).drop
    (wordSize + nameLenOf buffer + wordSize + payloadLenOf buffer))

variable {control shown : List UInt8}

section Layout

def LaidOut (buffer shown payload control : List UInt8) : Prop :=
  ∃ rest, buffer = leBytes wordSize shown.length ++ (shown ++
    (leBytes wordSize payload.length ++ (payload ++ (control ++ rest))))

section

variable (laidOut : LaidOut buffer shown payload control)

include laidOut

section

variable (small : shown.length < 2 ^ 64)

include small

theorem LaidOut.nameLenOf : nameLenOf buffer = shown.length := by
  obtain ⟨rest, rfl⟩ := laidOut
  unfold Uds.nameLenOf
  rw [take_left' (length_leBytes)]
  exact ofLeBytes_leBytes small

section

variable (fits : payload.length < 2 ^ 64)

include fits

theorem LaidOut.payloadLenOf :
    payloadLenOf buffer = payload.length := by
  have name := laidOut.nameLenOf small
  obtain ⟨rest, rfl⟩ := laidOut
  unfold Uds.payloadLenOf
  rw [name, ← append_assoc, drop_left' (by simp), take_left' (length_leBytes)]
  exact ofLeBytes_leBytes fits

theorem LaidOut.payloadOf :
    payloadOf buffer = payload := by
  have name := laidOut.nameLenOf small
  have length := laidOut.payloadLenOf small fits
  obtain ⟨rest, rfl⟩ := laidOut
  unfold Uds.payloadOf
  rw [name, length, ← append_assoc, ← append_assoc, drop_left' (by simp; omega), take_left' rfl]

theorem LaidOut.rightsOf :
    rightsOf buffer (wordSize + shown.length + wordSize + payload.length + control.length) =
      announcedIn control := by
  have name := laidOut.nameLenOf small
  have length := laidOut.payloadLenOf small fits
  unfold Uds.rightsOf
  rw [name, length]
  obtain ⟨rest, laid⟩ := laidOut
  -- Everything before the control data, which has a known length.
  obtain ⟨front, size, split⟩ : ∃ front : List UInt8,
      front.length = wordSize + shown.length + wordSize + payload.length ∧
        buffer = front ++ (control ++ rest) := by
    refine ⟨leBytes wordSize shown.length ++ shown ++ leBytes wordSize payload.length ++ payload,
      ?_, ?_⟩
    · simp only [length_append, length_leBytes]
    · rw [laid]
      simp only [append_assoc]
  rw [split, ← size, ← length_append, ← append_assoc, take_left' rfl, drop_left' rfl]

end

end

end

end Layout

open MsgWriter in
theorem take_cmsg {rest} : (cmsg level cType data ++ rest).take 4 = leBytes 4 level ∧
      ((cmsg level cType data ++ rest).drop 4).take 4 = leBytes 4 cType ∧
      (cmsg level cType data ++ rest).drop cmsgHeaderLen = data ++ rest := by
  have laid : cmsg level cType data ++ rest =
      leBytes 4 level ++ (leBytes 4 cType ++ (leBytes wordSize data.length ++ (data ++ rest))) := by
    simp only [cmsg, append_assoc]
  refine ⟨?_, ?_, ?_⟩
  · rw [laid, take_left' length_leBytes]
  · rw [laid, drop_left' length_leBytes, take_left' length_leBytes]
  · rfl

open MsgWriter in
theorem announcedIn_rights {rest numFds} (fits : numFds < 2 ^ 64) :
    announcedIn (cmsg solSocket scmRights (leBytes wordSize numFds) ++ rest) = numFds := by
  obtain ⟨level, cType, data⟩ := take_cmsg
  unfold announcedIn
  rw [level, cType, data, take_left' length_leBytes, if_pos]
  · exact ofLeBytes_leBytes fits
  · refine ⟨?_, by decide, by decide⟩
    rw [length_append, length_cmsg, length_leBytes]
    exact le_add_right _ _

open MsgWriter in
theorem announcedIn_ones {count} : announcedIn (replicate count 1) = 0 := by
  refine if_neg ?_
  rintro ⟨enough, level, _⟩
  rw [take_replicate, min_eq_left (by simp [cmsgHeaderLen, wordSize] at enough; omega)] at level
  exact absurd level (by decide)

theorem announcedIn_trailer (trailer : MsgWriter.Trailer control) : announcedIn control = 0 := by
  cases trailer with
  | none => rfl
  | credentials data rest =>
    obtain ⟨_, cType, _⟩ := take_cmsg
    unfold announcedIn
    rw [cType]
    exact if_neg fun impossible => absurd impossible.2.2 (by decide)
  | ones count => exact announcedIn_ones

theorem MsgWriter.Wrote.laidOut (wrote : writer.Wrote (leBytes wordSize shown.length ++ shown ++
      (leBytes wordSize payload.length ++ payload) ++ control) size) :
    LaidOut writer.buffer shown payload control ∧
      writer.writtenLen =
        wordSize + shown.length + wordSize + payload.length + control.length := by
  constructor
  · have split := wrote.split
    simp only [append_assoc] at split
    exact ⟨_, split⟩
  · rw [wrote.count]
    simp only [length_append, length_leBytes]
    omega

namespace Stream.Connection

theorem countFds_lt (ancillary : List AncillaryData) : countFds ancillary < 2 ^ 64 := by
  unfold countFds
  rcases eq_nil_or_concat ancillary with rfl | ⟨front, last, rfl⟩
  · decide
  · rw [concat_eq_append, foldl_append]
    exact mod_lt _ (by decide)

theorem length_collectLoop_le (room : Nat) (name : Option Name) (packets : List DataPacket) :
    (collectLoop room name packets).payload.length ≤ room := by
  induction packets generalizing room name with
  | nil => exact zero_le _
  | cons packet rest ih =>
    unfold collectLoop
    dsimp only
    split
    · exact zero_le _
    split
    · rw [length_append, length_take]
      have later := ih (room - min (DataPacket.remaining packet).length room)
        (if packet.ancillaryTaken = true then name else name <|> packet.ancillaryData.name)
      omega
    · rw [length_take]
      omega

variable {nameLen : Nat} {stream cleared : List UInt8}

/-- The buffer that `read_msghdr_info` leaves. -/
theorem of_readMsghdrInfo (prepared : readMsghdrInfo stream = .ok (nameLen, iovSize, cleared)) :
    cleared.length = stream.length ∧ cleared.take wordSize = leBytes wordSize 0 ∧
      nameLen < 2 ^ 64 ∧ 3 * wordSize ≤ stream.length := by
  unfold readMsghdrInfo at prepared
  split at prepared
  · cases prepared
  next enough =>
  obtain ⟨name, readName, prepared⟩ := ok_of_bind prepared
  obtain ⟨iov, _, prepared⟩ := ok_of_bind prepared
  cases prepared
  refine ⟨?_, rfl, ?_, Nat.le_of_not_lt enough⟩
  · rw [length_append, length_replicate, length_drop]
    omega
  · obtain ⟨bytes, sliced, rfl⟩ := Option.map_eq_some_iff.mp (okOr_ok readName)
    have size := (length_of_slice? sliced).1
    have bound := ofLeBytes_lt bytes
    rw [size] at bound
    exact bound

/-- What `recvmsg` makes of the packets it collected, in a buffer with so much room. -/
inductive Serialized (connection : Connection) (nameLen iovSize room : Nat) :
    Connection → Result Reply → Prop where
  | announced {buffer length} :
      payloadOf buffer = (collectLoop iovSize none connection.packets).payload →
      rightsOf buffer length = countFds (collectLoop iovSize none connection.packets).ancillary →
      Serialized connection nameLen iovSize room
        { connection with packets := (collectLoop iovSize none connection.packets).packets }
        (.ok (.message buffer length))
  /-- The descriptors have no room, and are dropped. -/
  | dropped {buffer length} :
      countFds (collectLoop iovSize none connection.packets).ancillary ≤ connection.fds.length →
      room < wordSize + nameLen + wordSize + iovSize + (cmsgHeaderLen + wordSize) →
      payloadOf buffer = (collectLoop iovSize none connection.packets).payload →
      rightsOf buffer length = 0 →
      Serialized connection nameLen iovSize room
        { connection with
          packets := (collectLoop iovSize none connection.packets).packets
          fds := connection.fds.drop
            (countFds (collectLoop iovSize none connection.packets).ancillary) }
        (.ok (.message buffer length))
  /-- There are fewer descriptors than announced. -/
  | failed {changed error} :
      connection.fds.length < countFds (collectLoop iovSize none connection.packets).ancillary →
      room < wordSize + nameLen + wordSize + iovSize + (cmsgHeaderLen + wordSize) →
      Serialized connection nameLen iovSize room changed (.error error)

theorem serialized_of_done {connection changed passcred result}
    (prepared : readMsghdrInfo stream = .ok (nameLen, iovSize, cleared))
    (room : wordSize + nameLen + wordSize + iovSize ≤ stream.length)
    (done : connection.serializeToMsgstream cleared nameLen iovSize passcred =
      some (changed, result)) :
    Serialized connection nameLen iovSize stream.length changed result := by
  obtain ⟨length, zero, nameSmall, _⟩ := of_readMsghdrInfo prepared
  have small := length_collectLoop_le iovSize none connection.packets
  have fewFds := countFds_lt (collectLoop iovSize none connection.packets).ancillary
  unfold serializeToMsgstream at done
  split at done
  · cases done
  next moderate =>
  dsimp only at done
  rw [min_eq_left small] at done
  generalize collected : collectLoop iovSize none connection.packets = found at small fewFds done
  obtain ⟨shown, short, named⟩ :=
    MsgWriter.Wrote.writeName zero found.name nameLen schemeName
  rw [length] at named
  have filled := named.writePayload small (by rw [length_append, length_leBytes]; omega)
  have shownSmall : shown.length < 2 ^ 64 := by omega
  have payloadSmall : found.payload.length < 2 ^ 64 := by omega
  -- What is read back, whatever control data follows.
  have readBack : ∀ {writer : MsgWriter} {control}, writer.Wrote
      (leBytes wordSize shown.length ++ shown ++
        (leBytes wordSize found.payload.length ++ found.payload) ++ control) stream.length →
      payloadOf writer.buffer = found.payload ∧
        rightsOf writer.buffer writer.writtenLen = announcedIn control := by
    intro writer control wrote
    obtain ⟨laidOut, count⟩ := wrote.laidOut
    rw [count]
    exact ⟨laidOut.payloadOf shownSmall payloadSmall, laidOut.rightsOf shownSmall payloadSmall⟩
  have finish : ∀ {writer : MsgWriter} {bytes}, writer.Wrote bytes stream.length →
      ∃ more, (if passcred then writeAllCredentials writer found.ancillary else writer).Wrote
        (bytes ++ more) stream.length ∧ MsgWriter.Trailer more := by
    intro writer bytes wrote
    cases passcred with
    | true => exact wrote.writeAllCredentials found.ancillary
    | false => exact ⟨[], by simpa using wrote, .none⟩
  have rights := filled.writeRights (countFds found.ancillary)
  generalize writeRights _ (countFds found.ancillary) = pair at rights done
  obtain ⟨ruled, described⟩ := pair
  rcases rights with ⟨rfl, zero, wrote⟩ | ⟨rfl, _, wrote⟩ | ⟨rfl, _, rest, few, full, wrote⟩
  · obtain ⟨more, final, trailer⟩ := finish wrote
    obtain ⟨payload, announced⟩ := readBack final
    cases done
    subst collected
    refine .announced payload ?_
    rw [announced, announcedIn_trailer trailer, zero]
  · obtain ⟨more, final, trailer⟩ := finish wrote
    rw [append_assoc _ _ more] at final
    obtain ⟨payload, announced⟩ := readBack final
    cases done
    subst collected
    refine .announced payload ?_
    rw [announced, announcedIn_rights fewFds]
  · obtain ⟨more, final, trailer⟩ := finish wrote
    -- The buffer is full of ones, so nothing follows them.
    have nothing : more = [] := by
      have within := final.le_size
      rw [length_append, length_append, length_replicate] at within
      exact eq_nil_of_length_eq_zero (by omega)
    subst nothing
    rw [append_nil] at final
    obtain ⟨payload, announced⟩ := readBack final
    have tight : stream.length <
        wordSize + nameLen + wordSize + iovSize + (cmsgHeaderLen + wordSize) := by
      simp only [length_append, length_leBytes] at full
      omega
    unfold dropFds Uds.dropFds at done
    by_cases enough : countFds found.ancillary ≤ connection.fds.length
    · simp only [enough, if_true] at done
      cases done
      subst collected
      exact .dropped enough tight payload (announced.trans announcedIn_ones)
    · simp only [enough, if_false] at done
      cases done
      subst collected
      exact .failed (by omega) tight

end Stream.Connection

end EosBase.Uds
