import EosBase.Lib.Bytes

/-!
# USB mass storage

`Scsi::read` and `Scsi::write` over a device that reads command blocks in big-endian order.
`Read16::new` stores its fields in that order, `Write16::new` in the order of the machine.
-/

namespace EosBase.Usbscsid

open List Blob

/-- `u64::to_be` and `u32::to_be` on a little-endian machine. -/
def toBe (width value : Nat) : Nat := ofLeBytes (leBytes width value).reverse

theorem toBe_toBe {width value} (fits : value < 256 ^ width) :
    toBe width (toBe width value) = value := by
  have length : (leBytes width value).reverse.length = width := by
    rw [length_reverse, length_leBytes]
  have bytes := leBytes_ofLeBytes (leBytes width value).reverse
  rw [length] at bytes
  rw [toBe, toBe, bytes, reverse_reverse, ofLeBytes_leBytes fits]

structure Command16 where
  opcode : UInt8
  a : UInt8
  lba : Nat
  transferLen : Nat
  b : UInt8
  control : UInt8

def Command16.bytes (this : Command16) : List UInt8 :=
  [this.opcode, this.a] ++ leBytes 8 this.lba ++ leBytes 4 this.transferLen ++
    [this.b, this.control]

def Read16.new (lba : UInt64) (transferLen : UInt32) (control : UInt8) : Command16 :=
  ⟨0x88, 0, toBe 8 lba.toNat, toBe 4 transferLen.toNat, 0, control⟩

def Write16.new (lba : UInt64) (transferLen : UInt32) (control : UInt8) : Command16 :=
  ⟨0x8A, 0, lba.toNat, transferLen.toNat, 0, control⟩

inductive DeviceReqData where
  | dataIn (buffer : List UInt8)
  | dataOut (buffer : List UInt8)

inductive SendCommandStatusKind where
  | success | failed

structure SendCommandStatus where
  residue : Option UInt32
  kind : SendCommandStatusKind

def SendCommandStatus.bytesTransferred (this : SendCommandStatus) (transferLen : UInt32) : UInt32 :=
  transferLen - this.residue.getD 0

/-- `Protocol::send_command`, with the buffer as it leaves it. -/
abbrev Protocol (Device Error : Type) :=
  Device → List UInt8 → DeviceReqData → Device × List UInt8 × Except Error SendCommandStatus

inductive ScsiError (Error : Type) where
  | protocolError (error : Error)
  | overflow (text : String)

structure Scsi where
  commandBuffer : List UInt8
  dataBuffer : List UInt8
  blockSize : UInt32

def resize (bytes : List UInt8) (length : Nat) : List UInt8 :=
  bytes.take length ++ replicate (length - bytes.length) 0

namespace Scsi

variable {Device Error : Type}

/-- There is no result after the panic of a division by zero. -/
def read (this : Scsi) (protocol : Protocol Device Error) (device : Device) (lba : UInt64)
    (buffer : List UInt8) : Option (Scsi × Device × List UInt8 × Except (ScsiError Error) UInt32) :=
  if this.blockSize = 0 then none
  else
    let blocksToRead := buffer.length / this.blockSize.toNat
    let bytesToRead := blocksToRead * this.blockSize.toNat
    if blocksToRead < 2 ^ 32 then
      let commandBuffer := (Read16.new lba (.ofNat blocksToRead) 0).bytes
      let (device, dataBuffer, result) :=
        protocol device commandBuffer (.dataIn (resize this.dataBuffer bytesToRead))
      let next : Scsi := { this with commandBuffer, dataBuffer }
      match result with
      | .error error => some (next, device, buffer, .error (.protocolError error))
      | .ok status =>
        some (next, device, dataBuffer.take bytesToRead ++ buffer.drop bytesToRead,
          .ok (status.bytesTransferred (.ofNat bytesToRead)))
    else
      some (this, device, buffer,
        .error (.overflow "number of blocks to read couldn't fit inside a u32"))

def write (this : Scsi) (protocol : Protocol Device Error) (device : Device) (lba : UInt64)
    (buffer : List UInt8) : Option (Scsi × Device × Except (ScsiError Error) UInt32) :=
  if this.blockSize = 0 then none
  else
    let blocksToWrite := buffer.length / this.blockSize.toNat
    let bytesToWrite := blocksToWrite * this.blockSize.toNat
    if blocksToWrite < 2 ^ 32 then
      let commandBuffer := (Write16.new lba (.ofNat blocksToWrite) 0).bytes
      let (device, _, result) :=
        protocol device commandBuffer (.dataOut (buffer.take bytesToWrite))
      let next : Scsi := { this with commandBuffer, dataBuffer := buffer.take bytesToWrite }
      match result with
      | .error error => some (next, device, .error (.protocolError error))
      | .ok status =>
        some (next, device, .ok (status.bytesTransferred (.ofNat bytesToWrite)))
    else
      some (this, device, .error (.overflow "number of blocks to write couldn't fit inside a u32"))

end Scsi

/-- The operation code, the address and the number of blocks, as the standard lays them out. -/
def decode (command : List UInt8) : UInt8 × Nat × Nat :=
  (command.headD 0, ofLeBytes ((command.drop 2).take 8).reverse,
    ofLeBytes ((command.drop 10).take 4).reverse)

theorem decode_bytes {command : Command16} :
    decode command.bytes = (command.opcode, toBe 8 command.lba, toBe 4 command.transferLen) :=
  rfl

/-- A device with a block for every address.  It transfers all data of a command that asks for
as many bytes as the host offers; what it does with other commands is left open. -/
def execute {Error : Type} (blockSize : Nat) (otherwise : Protocol Blob Error) :
    Protocol Blob Error :=
  fun medium command data =>
    let (opcode, lba, count) := decode command
    match data with
    | .dataIn buffer =>
      if opcode = 0x88 ∧ buffer.length = count * blockSize then
        (medium, medium.read (lba * blockSize) buffer.length, .ok ⟨none, .success⟩)
      else otherwise medium command data
    | .dataOut buffer =>
      if opcode = 0x8A ∧ buffer.length = count * blockSize then
        (medium.writeAllAt buffer (lba * blockSize), [], .ok ⟨none, .success⟩)
      else otherwise medium command data

variable {Error : Type} {this : Scsi} {lba : UInt64} {buffer : List UInt8} {medium : Blob}
  {otherwise : Protocol Blob Error}

def RoundTrip (protocol : Protocol Blob Error) (this : Scsi) (medium : Blob) (lba : UInt64)
    (buffer : List UInt8) : Prop :=
  ∀ written stored count,
    this.write protocol medium lba buffer = some (written, stored, .ok count) →
    (∀ other : List UInt8, other.length = buffer.length → ∃ after result,
      written.read protocol stored lba other = some (after, stored, buffer, .ok result)) ∧
    ∀ block, block < lba.toNat ∨ lba.toNat + buffer.length / this.blockSize.toNat ≤ block →
      stored.read (block * this.blockSize.toNat) this.blockSize.toNat =
        medium.read (block * this.blockSize.toNat) this.blockSize.toNat

def Mirrored (width value : Nat) : Prop := toBe width value = value

instance (width value : Nat) : Decidable (Mirrored width value) :=
  inferInstanceAs (Decidable (_ = _))

structure Fits (this : Scsi) (buffer : List UInt8) : Prop where
  positive : this.blockSize ≠ 0
  whole : this.blockSize.toNat ∣ buffer.length
  few : buffer.length / this.blockSize.toNat < 2 ^ 32

namespace Fits

section

variable (fits : Fits this buffer)

include fits

theorem toNat_count : (UInt32.ofNat (buffer.length / this.blockSize.toNat)).toNat =
      buffer.length / this.blockSize.toNat := by
  rw [UInt32.toNat_ofNat', Nat.mod_eq_of_lt fits.few]

theorem bytes : buffer.length / this.blockSize.toNat * this.blockSize.toNat = buffer.length :=
  Nat.div_mul_cancel fits.whole

theorem blockSize_pos : 0 < this.blockSize.toNat := by
  apply Nat.pos_of_ne_zero
  intro zero
  exact fits.positive (UInt32.toNat_inj.mp zero)

theorem read_eq : ∃ after count,
      this.read (execute this.blockSize.toNat otherwise) medium lba buffer = some (after, medium,
        medium.read (lba.toNat * this.blockSize.toNat) buffer.length, .ok count) := by
  have address : toBe 8 (toBe 8 lba.toNat) = lba.toNat := toBe_toBe lba.toNat_lt
  have count : toBe 4 (toBe 4 (buffer.length / this.blockSize.toNat)) =
      buffer.length / this.blockSize.toNat := toBe_toBe fits.few
  have length : (resize this.dataBuffer buffer.length).length = buffer.length := by
    rw [resize, length_append, length_take, length_replicate]
    omega
  simp only [Scsi.read, if_neg fits.positive, if_pos fits.few, execute, decode_bytes, Read16.new,
    fits.toNat_count, address, count, fits.bytes, length, and_self, if_true, drop_length,
    append_nil]
  rw [take_of_length_le (length_read).le]
  exact ⟨_, _, rfl⟩

theorem write_eq (mirrored : Mirrored 4 (buffer.length / this.blockSize.toNat)) : ∃ written count,
      this.write (execute this.blockSize.toNat otherwise) medium lba buffer = some (written,
        medium.writeAllAt buffer (toBe 8 lba.toNat * this.blockSize.toNat), .ok count) ∧
      written.blockSize = this.blockSize := by
  rw [Mirrored] at mirrored
  simp only [Scsi.write, if_neg fits.positive, if_pos fits.few, execute, decode_bytes,
    Write16.new, fits.toNat_count, mirrored, fits.bytes, take_length, and_self, if_true]
  exact ⟨_, _, rfl, rfl⟩

theorem congr {other bytes} (size : other.blockSize = this.blockSize)
    (length : bytes.length = buffer.length) : Fits other bytes :=
  ⟨size ▸ fits.positive, size ▸ length ▸ fits.whole, size ▸ length ▸ fits.few⟩

theorem roundTrip (count : Mirrored 4 (buffer.length / this.blockSize.toNat))
    (address : buffer.length / this.blockSize.toNat = 0 ∨ Mirrored 8 lba.toNat) :
    RoundTrip (execute this.blockSize.toNat otherwise) this medium lba buffer := by
  intro written stored result wrote
  obtain ⟨_, _, writes, size⟩ := fits.write_eq count
  have place : medium.writeAllAt buffer (toBe 8 lba.toNat * this.blockSize.toNat) =
      medium.writeAllAt buffer (lba.toNat * this.blockSize.toNat) := by
    rcases address with none | mirrored
    · have empty := fits.bytes
      rw [none, Nat.zero_mul] at empty
      rw [length_eq_zero_iff.mp empty.symm, writeAllAt_nil, writeAllAt_nil]
    · rw [mirrored]
  rw [place] at writes
  cases wrote.symm.trans writes
  constructor
  · intro other length
    obtain ⟨after, count, reads⟩ := (fits.congr size length).read_eq
    rw [size, length, read_writeAllAt] at reads
    exact ⟨after, count, reads⟩
  · intro block outside
    have bytes := fits.bytes
    apply (medium.agree_writeAllAt _).read le_rfl le_rfl
    rcases outside with before | behind
    · left
      rw [← Nat.succ_mul]
      exact Nat.mul_le_mul_right _ before
    · right
      rw [← bytes, ← Nat.add_mul]
      exact Nat.mul_le_mul_right _ behind

end

end Fits

/-- The device does nothing and says that it did everything. -/
def accept : Protocol Blob Error := fun medium _ _ => (medium, [], .ok ⟨none, .success⟩)

def without (buffer : List UInt8) : Blob := ⟨fun _ => buffer.headD 0 + 1, 0⟩

theorem without_ne {position} : (without buffer).byte position ≠ buffer.headD 0 := by
  intro same
  have numbers : (buffer.headD 0 + 1).toNat = (buffer.headD 0).toNat := congrArg UInt8.toNat same
  rw [UInt8.toNat_add, UInt8.toNat_one] at numbers
  omega

namespace Fits

theorem write_accepted (fits : Fits this buffer)
    (other : ¬ Mirrored 4 (buffer.length / this.blockSize.toNat)) :
    ∃ written count, this.write (execute this.blockSize.toNat (accept : Protocol Blob Error))
        medium lba buffer = some (written, medium, .ok count) ∧
      written.blockSize = this.blockSize := by
  have mismatch : ¬ buffer.length =
      toBe 4 (buffer.length / this.blockSize.toNat) * this.blockSize.toNat := by
    intro same
    apply other
    apply Nat.eq_of_mul_eq_mul_right fits.blockSize_pos
    rw [← same, fits.bytes]
  simp only [Scsi.write, if_neg fits.positive, if_pos fits.few, execute, decode_bytes,
    Write16.new, fits.toNat_count, fits.bytes, take_length, mismatch, and_false, if_false,
    accept]
  exact ⟨_, _, rfl, rfl⟩

theorem not_roundTrip (fits : Fits this buffer) (nonempty : buffer ≠ [])
    (elsewhere : ¬ (Mirrored 4 (buffer.length / this.blockSize.toNat) ∧ Mirrored 8 lba.toNat)) :
    ¬ RoundTrip (execute this.blockSize.toNat (accept : Protocol Blob Error)) this
      (without buffer) lba buffer := by
  intro trip
  have length : 0 < buffer.length := length_pos_iff.mpr nonempty
  -- The first byte that is read back is not one of the medium.
  have found : ∀ {written stored count},
      this.write (execute this.blockSize.toNat (accept : Protocol Blob Error)) (without buffer)
        lba buffer = some (written, stored, .ok count) → written.blockSize = this.blockSize →
      stored.byte (lba.toNat * this.blockSize.toNat) = buffer.headD 0 := by
    intro written stored count wrote size
    obtain ⟨_, _, reads⟩ := (trip _ _ _ wrote).1 buffer rfl
    obtain ⟨_, _, holds⟩ := (fits.congr size rfl).read_eq
    rw [size, reads] at holds
    simp only [Option.some.injEq, Prod.mk.injEq, true_and] at holds
    rw [holds.2.1, headD_eq_head?_getD, head?_read _ length, Option.getD_some]
  by_cases count : Mirrored 4 (buffer.length / this.blockSize.toNat)
  · obtain ⟨_, _, wrote, size⟩ := fits.write_eq count
    rcases Nat.lt_or_gt_of_ne fun mirrored => elsewhere ⟨count, mirrored⟩ with before | behind
    · have same := congrArg head? ((trip _ _ _ wrote).2 _ (.inl before))
      rw [head?_read _ fits.blockSize_pos, head?_read _ fits.blockSize_pos] at same
      refine without_ne ((Option.some.inj same).symm.trans ?_)
      refine (if_pos ⟨le_rfl, Nat.lt_add_of_pos_right length⟩).trans ?_
      rw [Nat.sub_self]
      cases buffer <;> rfl
    · refine without_ne ((if_neg ?_).symm.trans (found wrote size))
      intro inside
      exact Nat.not_le_of_lt behind (Nat.le_of_mul_le_mul_right inside.1 fits.blockSize_pos)
  · obtain ⟨_, _, wrote, size⟩ := fits.write_accepted count
    exact without_ne (found wrote size)

end Fits

/-- Every device returns what was written exactly when the number of blocks reads the same in
both byte orders and, unless there is no block, the address does too. -/
theorem round_trip_iff (positive : this.blockSize ≠ 0)
    (whole : this.blockSize.toNat ∣ buffer.length)
    (few : buffer.length / this.blockSize.toNat < 2 ^ 32) :
    (∀ (otherwise : Protocol Blob Error) medium,
        RoundTrip (execute this.blockSize.toNat otherwise) this medium lba buffer) ↔
      Mirrored 4 (buffer.length / this.blockSize.toNat) ∧
        (buffer.length / this.blockSize.toNat = 0 ∨ Mirrored 8 lba.toNat) := by
  have fits : Fits this buffer := ⟨positive, whole, few⟩
  constructor
  · intro trips
    by_cases none : buffer.length / this.blockSize.toNat = 0
    · rw [none]
      exact ⟨by decide, .inl rfl⟩
    have nonempty : buffer ≠ [] := by
      rintro rfl
      exact none (Nat.zero_div _)
    by_cases both : Mirrored 4 (buffer.length / this.blockSize.toNat) ∧ Mirrored 8 lba.toNat
    · exact ⟨both.1, .inr both.2⟩
    · exact absurd (trips accept (without buffer)) (fits.not_roundTrip nonempty both)
  · rintro ⟨count, address⟩ otherwise medium
    exact fits.roundTrip count address

theorem fits_mirrored (length : buffer.length = 65792 * 512) :
    Fits ⟨[], [], 512⟩ buffer ∧ buffer.length / (512 : UInt32).toNat = 65792 := by
  have count : buffer.length / (512 : UInt32).toNat = 65792 := by
    rw [length]
    rfl
  refine ⟨⟨by decide, ⟨65792, ?_⟩, ?_⟩, count⟩
  · rw [length]
    rfl
  · rw [count]
    decide

theorem exists_length {length} : ∃ buffer : List UInt8, buffer.length = length :=
  ⟨replicate length 7, length_replicate⟩

/-- Such a buffer comes back from address 0. -/
theorem round_trip_iff_first : ∃ buffer, buffer.length = 65792 * 512 ∧
      RoundTrip (execute 512 (accept : Protocol Blob Unit)) ⟨[], [], 512⟩ .empty 0 buffer := by
  obtain ⟨buffer, length⟩ := exists_length
  obtain ⟨fits, count⟩ := fits_mirrored length
  refine ⟨buffer, length, ?_⟩
  apply (round_trip_iff fits.positive fits.whole fits.few).mpr
  rw [count]
  decide

/-- At address 1 it is written to address 2 ^ 56. -/
theorem blocks_written_elsewhere : ∃ buffer, buffer.length = 65792 * 512 ∧
      ¬ RoundTrip (execute 512 (accept : Protocol Blob Unit)) ⟨[], [], 512⟩ (without buffer) 1
        buffer := by
  obtain ⟨buffer, length⟩ := exists_length
  obtain ⟨fits, _⟩ := fits_mirrored length
  refine ⟨buffer, length, fits.not_roundTrip ?_ ?_⟩
  · rintro rfl
    cases length
  · rintro ⟨_, address⟩
    revert address
    decide

end EosBase.Usbscsid
