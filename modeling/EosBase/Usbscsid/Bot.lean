import EosBase.Usbscsid.Scsi

/-!
# Bulk-only transport

`usbscsid/src/protocol/bot.rs`.  What the calls to the endpoints return belongs to a
command.  The tags count the commands.
-/

namespace EosBase.Usbscsid

inductive ProtocolError where
  | tooLargeCommandBlock (length : Nat)
  | xhciError (text : String)
  | recoveryFailed
  | protocolError (text : String)

abbrev Called := ExceptT ProtocolError Option

def panicked {Value : Type} : Called Value := ExceptT.mk none

inductive PortTransferStatusKind where
  | success | shortPacket | stalled | unknown

structure PortTransferStatus where
  kind : PortTransferStatusKind
  bytesTransferred : UInt32

def CSW_SIGNATURE : UInt32 := 0x53425355

structure CommandStatusWrapper where
  signature : UInt32
  tag : UInt32
  dataResidue : UInt32
  status : UInt8

/-- What the calls of a command return, and the status wrapper that each read of one finds. -/
structure Answers where
  cbw : Called PortTransferStatus
  data : Called PortTransferStatus
  csw : List (Called PortTransferStatus × CommandStatusWrapper)
  clearStallIn : Called Unit
  resetRecovery : Called Unit
  halted : Called Bool

namespace Answers

variable (this : Answers)

def readCsw (already : Bool) :
    List (Called PortTransferStatus × CommandStatusWrapper) → Called CommandStatusWrapper
  -- stalled for ever
  | [] => panicked
  | (read, csw) :: later => do
    let status ← read
    match status.kind with
    | .stalled =>
      if already then
        this.resetRecovery
      this.clearStallIn
      readCsw true later
    | .shortPacket => if status.bytesTransferred = 13 then return csw else panicked
    | _ => return csw

def nonZero (value : UInt32) : Option UInt32 := if value = 0 then none else some value

/-- The data stage, which both directions have alike. -/
def earlyResidue : Option DeviceReqData → Called (Option UInt32)
  | none => return none
  | some _ => do
    let status ← this.data
    match status.kind with
    | .success => return none
    | .shortPacket => return nonZero status.bytesTransferred
    | .stalled => panicked
    | .unknown => throw (.xhciError "unknown transfer status")

/-- `send_command`; there may be no data at all. -/
def sendCommand (currentTag : UInt32) (cb : List UInt8) (data : Option DeviceReqData) :
    Called SendCommandStatus := do
  if 16 < cb.length then
    throw (.tooLargeCommandBlock cb.length)
  match ← this.cbw with
  | ⟨.stalled, _⟩ => panicked
  | ⟨_, bytesTransferred⟩ =>
    if bytesTransferred ≠ 31 then
      panicked
    let earlyResidue ← this.earlyResidue data
    let csw ← this.readCsw false this.csw
    let residue := earlyResidue.or (nonZero csw.dataResidue)
    if csw.signature ≠ CSW_SIGNATURE ∨ csw.tag ≠ currentTag + 1 then
      this.resetRecovery
      if ← this.halted then
        throw (.protocolError "Reset Recovery didn't reset endpoints")
      throw (.protocolError "CSW invalid, but a recover was successful")
    if csw.status = 0 then
      return ⟨residue, .success⟩
    else if csw.status = 1 then
      return ⟨residue, .failed⟩
    else
      throw (.protocolError "bulk-only transport phase error, or other")

/-- A device that moves `moved` of `length` bytes and reports the rest as residue. -/
structure Honest (currentTag : UInt32) (length moved : UInt32) : Prop where
  cbw : ∃ kind, kind ≠ .stalled ∧ this.cbw = pure ⟨kind, 31⟩
  data : this.data = pure ⟨.success, moved⟩ ∧ moved = length ∨
    this.data = pure ⟨.shortPacket, moved⟩ ∧ moved < length
  csw : this.readCsw false this.csw = pure ⟨CSW_SIGNATURE, currentTag + 1, length - moved, 0⟩

end Answers

variable {answers : Answers} {currentTag length moved : UInt32}

theorem Answers.Honest.sendCommand {cb data} (honest : answers.Honest currentTag length moved)
    (short : cb.length ≤ 16) : (answers.sendCommand currentTag cb (some data)).run = some (.ok
      ⟨(if moved < length then nonZero moved else none).or (nonZero (length - moved)),
        .success⟩) := by
  obtain ⟨⟨kind, running, cbw⟩, data, csw⟩ := honest
  rw [Answers.sendCommand, cbw, earlyResidue, csw]
  rcases data with ⟨data, rfl⟩ | ⟨data, less⟩
  · rw [data]
    simp [Nat.not_lt.mpr short]
  · rw [data]
    simp [Nat.not_lt.mpr short, less]

/-- A short packet is counted right if nothing was moved, or just half. -/
theorem bytesTransferred_iff (honest : answers.Honest currentTag length moved)
    (cb : List UInt8) (data : DeviceReqData) :
    (∃ status, (answers.sendCommand currentTag cb (some data)).run = some (.ok status) ∧
      status.kind = .success ∧ status.residue.getD 0 ≤ length ∧
      status.bytesTransferred length = moved) ↔
      cb.length ≤ 16 ∧ (moved = length ∨ moved = 0 ∨ 2 * moved.toNat = length.toNat) := by
  by_cases short : cb.length ≤ 16
  · rw [honest.sendCommand short]
    simp only [Option.some.injEq, Except.ok.injEq, exists_eq_left',
      SendCommandStatus.bytesTransferred, short, true_and]
    rcases honest.data with ⟨_, rfl⟩ | ⟨_, less⟩
    · simp [Answers.nonZero]
    by_cases nothing : moved = 0
    · simp [Answers.nonZero, less]
      grind
    · have fewer := UInt32.lt_iff_toNat_lt.mp less
      have below := length.toNat_lt
      simp only [Answers.nonZero, if_pos less, if_neg nothing, Option.some_or, Option.getD_some]
      simp only [UInt32.le_iff_toNat_le, ← UInt32.toNat_inj, UInt32.toNat_sub,
        UInt32.toNat_zero] at nothing ⊢
      omega
  · have thrown : (answers.sendCommand currentTag cb (some data)).run =
        some (.error (.tooLargeCommandBlock cb.length)) := by
      rw [Answers.sendCommand, if_pos (Nat.not_le.mp short)]
      rfl
    simp [short, thrown]

/-- A device that answers the first command, without a stall. -/
def reports (kind : PortTransferStatusKind) (moved residue : UInt32) : Answers :=
  ⟨pure ⟨.success, 31⟩, pure ⟨kind, moved⟩,
    [(pure ⟨.success, 13⟩, ⟨CSW_SIGNATURE, 1, residue, 0⟩)], pure (), pure (), pure false⟩

theorem bytesTransferred_block : ∃ status,
    ((reports .success 512 0).sendCommand 0 [0x28] (some (.dataIn (.replicate 512 0)))).run =
      some (.ok status) ∧ status.bytesTransferred 512 = 512 := by
  have honest : (reports .success 512 0).Honest 0 512 512 :=
    ⟨⟨.success, nofun, rfl⟩, Or.inl ⟨rfl, rfl⟩, rfl⟩
  obtain ⟨status, sent, _, _, counted⟩ :=
    (bytesTransferred_iff honest [0x28] _).mpr ⟨by decide, Or.inl rfl⟩
  exact ⟨status, sent, counted⟩

theorem short_packet_miscounted : (reports .shortPacket 100 412).Honest 0 512 100 ∧
    ((reports .shortPacket 100 412).sendCommand 0 [0x28]
      (some (.dataIn (.replicate 512 0)))).run = some (.ok ⟨some 100, .success⟩) ∧
    SendCommandStatus.bytesTransferred ⟨some 100, .success⟩ 512 = 412 :=
  ⟨⟨⟨.success, nofun, rfl⟩, Or.inr ⟨rfl, by decide⟩, rfl⟩, rfl, rfl⟩

end EosBase.Usbscsid
