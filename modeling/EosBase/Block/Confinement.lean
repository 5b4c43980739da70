import EosBase.Block.Scheme

/-!
# Transfers stay inside of their partition

A transfer through the handle of a partition has its first block compared with the
size of the partition, and nothing else.  It stays inside when its last block does
too, and when the number of its first block on the disk can be computed.
-/

namespace EosBase.Block

open Redox DiskSchemeInner

variable {Device State : Type} [Disk Device]

def Access.Within (access : Access) (blockSize : UInt32) (part : Partition) : Prop :=
  ∀ index < access.length / blockSize.toNat,
    part.startLba.toNat ≤ access.block.toNat + index ∧
      access.block.toNat + index < part.startLba.toNat + part.size.toNat

/-- A transfer accesses blocks of the partition only, or fails without an access. -/
def Confined (this : DiskSchemeInner Device) (disk part : UInt32)
    (transfer : Option (Outcome State)) : Prop :=
  ∃ outcome, transfer = some outcome ∧
    (outcome.accesses = [] → ∃ error, outcome.result = .error error) ∧
    ∀ access ∈ outcome.accesses, ∃ wrapper table entry,
      this.disks.get? disk = some wrapper ∧ wrapper.pt = some table ∧
        table.partitions[part.toNat]? = some entry ∧ access.Within wrapper.blockSize entry

/-- What a transfer needs to stay inside.  Only a transfer of whole blocks, and of at
least one, that starts in the partition needs its end to lie there as well. -/
def Fits (this : DiskSchemeInner Device) (disk part : UInt32) (offset : UInt64)
    (length : Nat) : Prop :=
  ∀ wrapper, this.disks.get? disk = some wrapper →
    wrapper.blockSize ≠ 0 ∧
    ∀ table entry, wrapper.pt = some table → table.partitions[part.toNat]? = some entry →
      length ≠ 0 → length % wrapper.blockSize.toNat = 0 →
      offset.toNat / wrapper.blockSize.toNat < entry.size.toNat →
      offset.toNat / wrapper.blockSize.toNat + length / wrapper.blockSize.toNat ≤
          entry.size.toNat ∧
        entry.startLba.toNat + offset.toNat / wrapper.blockSize.toNat < 2 ^ 64

def Follows (located : Option (Result UInt64)) (length : Nat)
    (transfer : Option (Outcome State)) : Prop :=
  match located with
  | none => transfer = none
  | some (.error error) =>
    ∃ outcome, transfer = some outcome ∧ outcome.accesses = [] ∧ outcome.result = .error error
  | some (.ok block) => ∃ outcome, transfer = some outcome ∧ outcome.accesses = [⟨block, length⟩]

variable {this : DiskWrapper Device} {buffer : List UInt8} {block offset : UInt64}

theorem DiskWrapper.read_follows {partNum} : Follows
    (this.locate partNum block buffer.length) buffer.length
      (this.read partNum block buffer) := by
  rw [read]
  cases this.locate partNum block buffer.length with
  | none => rfl
  | some located =>
    cases located with
    | error error => exact ⟨_, rfl, rfl, rfl⟩
    | ok absBlock => exact ⟨_, rfl, rfl⟩

theorem DiskWrapper.write_follows {partNum} : Follows
    (this.locate partNum block buffer.length) buffer.length
      (this.write partNum block buffer) := by
  rw [write]
  cases this.locate partNum block buffer.length with
  | none => rfl
  | some located =>
    cases located with
    | error error => exact ⟨_, rfl, rfl, rfl⟩
    | ok absBlock => exact ⟨_, rfl, rfl⟩

theorem Follows.map {located length} {After : Type}
    {transfer} (follows : Follows located length transfer) (next : State → After) :
    Follows located length
      (transfer.map fun outcome => { outcome with state := next outcome.state }) := by
  cases located with
  | none =>
    cases (follows : transfer = none)
    rfl
  | some located =>
    cases located with
    | error error =>
      obtain ⟨outcome, rfl, untouched, failed⟩ := follows
      exact ⟨_, rfl, untouched, failed⟩
    | ok block =>
      obtain ⟨outcome, rfl, accessed⟩ := follows
      exact ⟨_, rfl, accessed⟩

theorem within_iff (blockSize : UInt32) (length : Nat) {entry}
    (inside : block.toNat < entry.size.toNat) :
    (⟨entry.startLba + block, length⟩ : Access).Within blockSize entry ↔
      (length / blockSize.toNat ≠ 0 → block.toNat + length / blockSize.toNat ≤ entry.size.toNat ∧
          entry.startLba.toNat + block.toNat < 2 ^ 64) := by
  have small := block.toNat_lt
  simp only [Access.Within, UInt64.toNat_add]
  generalize length / blockSize.toNat = count
  by_cases fits : entry.startLba.toNat + block.toNat < 2 ^ 64
  · constructor
    · intro within nonempty
      have last := within (count - 1) (by omega)
      omega
    · intro room index early
      omega
  · -- the sum wraps around to a block before the partition
    constructor
    · intro within nonempty
      have first := within 0 (by omega)
      omega
    · intro room index early
      exact absurd (room (by omega)).2 fits

theorem DiskWrapper.locate_partition (positive : this.blockSize ≠ 0) (partNum : Nat)
    (block : UInt64) (length : Nat) :
    (∃ table entry, this.pt = some table ∧ table.partitions[partNum]? = some entry ∧
        length % this.blockSize.toNat = 0 ∧ block.toNat < entry.size.toNat ∧
        this.locate (some partNum) block length = some (.ok (entry.startLba + block))) ∨
      ((∃ error, this.locate (some partNum) block length = some (.error error)) ∧
        ∀ table entry, this.pt = some table → table.partitions[partNum]? = some entry →
          length % this.blockSize.toNat = 0 → entry.size.toNat ≤ block.toNat) := by
  by_cases whole : length % this.blockSize.toNat = 0
  swap
  · refine Or.inr ⟨⟨.EINVAL, ?_⟩, fun _ _ _ _ aligned => absurd aligned whole⟩
    rw [locate, if_neg positive, if_pos whole]
  · have located : this.locate (some partNum) block length = some do
        let table ← okOr .EBADF this.pt
        let part ← okOr .EBADF table.partitions[partNum]?
        if part.size ≤ block then throw .EOVERFLOW else return part.startLba + block := by
      rw [locate, if_neg positive, if_neg (not_not.mpr whole)]
    cases read : this.pt with
    | none =>
      rw [read] at located
      exact Or.inr ⟨⟨_, located⟩, fun _ _ absent => nomatch absent⟩
    | some table =>
      cases found : table.partitions[partNum]? with
      | none =>
        simp only [read, okOr, bind, Except.bind, found] at located
        refine Or.inr ⟨⟨_, located⟩, ?_⟩
        rintro _ entry ⟨⟩ present
        cases found.symm.trans present
      | some entry =>
        simp only [read, okOr, bind, Except.bind, found] at located
        by_cases past : entry.size ≤ block
        · rw [if_pos past] at located
          refine Or.inr ⟨⟨_, located⟩, ?_⟩
          rintro _ _ ⟨⟩ present _
          cases found.symm.trans present
          exact UInt64.le_iff_toNat_le.mp past
        · rw [if_neg past] at located
          exact Or.inl ⟨table, entry, rfl, found, whole,
            Nat.lt_of_not_le fun above => past (UInt64.le_iff_toNat_le.mpr above), located⟩

theorem div_ne_zero_iff_of_mod {length blockSize} (positive : 0 < blockSize)
    (whole : length % blockSize = 0) : length / blockSize ≠ 0 ↔ length ≠ 0 := by
  rw [not_iff_not, Nat.div_eq_zero_iff_lt positive]
  constructor
  · intro short
    rwa [Nat.mod_eq_of_lt short] at whole
  · rintro rfl
    exact positive

/-- A transfer on the disk of a partition that follows `locate` is confined exactly
when it fits. -/
theorem confined_onDisk_iff {this : DiskSchemeInner Device} {disk part : UInt32} {transfer}
    (follows : ∀ wrapper block, Follows
      (wrapper.locate (some part.toNat) block buffer.length) buffer.length
      (transfer wrapper block buffer)) :
    Confined this disk part (this.onDisk disk buffer offset transfer) ↔
      Fits this disk part offset buffer.length := by
  cases found : this.disks.get? disk with
  | none =>
    constructor
    · intro _ wrapper present
      cases found.symm.trans present
    · intro _
      refine ⟨_, by rw [onDisk, found], fun _ => ⟨_, rfl⟩, ?_⟩
      intro access accessed
      cases accessed
  | some wrapper =>
    by_cases zero : wrapper.blockSize = 0
    · have panics : this.onDisk disk buffer offset transfer = none := by
        rw [onDisk, found]
        exact if_pos zero
      constructor
      · rintro ⟨outcome, done, _⟩
        cases panics.symm.trans done
      · intro fits
        exact absurd zero (fits wrapper found).1
    · have positive : 0 < wrapper.blockSize.toNat :=
        Nat.pos_of_ne_zero fun none => zero (UInt32.toNat_inj.mp none)
      have done : Follows
          (wrapper.locate (some part.toNat) (offset / wrapper.blockSize.toUInt64) buffer.length)
          buffer.length (this.onDisk disk buffer offset transfer) := by
        rw [onDisk, found]
        change Follows _ _ (if _ then _ else _)
        rw [if_neg zero]
        exact (follows wrapper (offset / wrapper.blockSize.toUInt64)).map fun changed =>
          { this with disks := this.disks.insert disk changed }
      rcases wrapper.locate_partition zero part.toNat (offset / wrapper.blockSize.toUInt64)
        buffer.length with
        ⟨table, entry, read, listed, whole, inside, located⟩ | ⟨⟨error, located⟩, outside⟩
      · rw [located] at done
        obtain ⟨outcome, finished, accessed⟩ := done
        have within := within_iff wrapper.blockSize buffer.length inside
        rw [div_ne_zero_iff_of_mod positive whole] at within
        constructor
        · rintro ⟨other, same, _, confined⟩
          cases finished.symm.trans same
          rw [accessed] at confined
          obtain ⟨_, _, _, present, tabled, numbered, stays⟩ :=
            confined _ (List.mem_singleton_self _)
          cases found.symm.trans present
          cases read.symm.trans tabled
          cases listed.symm.trans numbered
          rintro _ present
          cases found.symm.trans present
          refine ⟨zero, ?_⟩
          intro _ _ tabled numbered nonempty _ _
          cases read.symm.trans tabled
          cases listed.symm.trans numbered
          exact within.mp stays nonempty
        · intro fits
          refine ⟨outcome, finished, ?_, ?_⟩
          · intro untouched
            rw [accessed] at untouched
            cases untouched
          · intro access member
            rw [accessed, List.mem_singleton] at member
            subst member
            refine ⟨wrapper, table, entry, found, read, listed, within.mpr ?_⟩
            intro nonempty
            exact (fits wrapper found).2 table entry read listed nonempty whole inside
      · rw [located] at done
        obtain ⟨outcome, finished, untouched, failed⟩ := done
        constructor
        · rintro _ _ present
          cases found.symm.trans present
          refine ⟨zero, ?_⟩
          intro table entry tabled numbered _ whole inside
          have past := outside table entry tabled numbered whole
          exact absurd inside (Nat.not_lt_of_le past)
        · intro _
          refine ⟨outcome, finished, fun _ => ⟨error, failed⟩, ?_⟩
          intro access member
          rw [untouched] at member
          cases member

/-- A read or a write through the handle of a partition touches nothing outside of the
partition exactly when it fits. -/
theorem partition_confined_iff (this : DiskSchemeInner Device) (id : Nat) (disk part : UInt32)
    (buffer : List UInt8) (offset : UInt64)
    (opened : this.handles.get? id = some (.partition disk part)) :
    (Confined this disk part (this.read id buffer offset) ↔
        Fits this disk part offset buffer.length) ∧
      (Confined this disk part (this.write id buffer offset) ↔
        Fits this disk part offset buffer.length) := by
  have got : this.handles.get id = .ok (.partition disk part) := by
    rw [HandleMap.get, opened]
    rfl
  constructor
  · rw [DiskSchemeInner.read, got]
    exact confined_onDisk_iff fun wrapper block =>
      DiskWrapper.read_follows
  · rw [DiskSchemeInner.write, got]
    exact confined_onDisk_iff fun wrapper block =>
      DiskWrapper.write_follows

/-- A handle for the first of two partitions of one block each. -/
def firstOpened : DiskSchemeInner Blank :=
  ⟨twoPartitions, (HandleMap.new.insert (.partition 0 0)).1⟩

def blocksOfOnes (count : Nat) : List UInt8 := List.replicate (count * 512) 1

theorem firstOpened_disk {wrapper} (found : firstOpened.disks.get? 0 = some wrapper) :
    wrapper = ⟨⟨512⟩, some ⟨[⟨10, 1⟩, ⟨11, 1⟩]⟩⟩ :=
  Option.some.inj (found.symm.trans (Table.get?_insert_self _ _ _))

theorem partition_confined_one_block :
    Confined firstOpened 0 0 (firstOpened.write 1 (blocksOfOnes 1) 0) := by
  apply (partition_confined_iff firstOpened 1 0 0 (blocksOfOnes 1) 0 (by decide)).2.mpr
  intro wrapper found
  cases firstOpened_disk found
  refine ⟨by decide, ?_⟩
  rintro _ _ ⟨⟩ ⟨⟩ _ _ _
  decide +kernel

/-- Two blocks written through the handle of a partition of one block: the second one
is the first block of the next partition. -/
theorem next_partition_overwritten :
    ¬ Confined firstOpened 0 0 (firstOpened.write 1 (blocksOfOnes 2) 0) := by
  rintro ⟨outcome, done, _, confined⟩
  have accessed : (firstOpened.write 1 (blocksOfOnes 2) 0).map Outcome.accesses =
      some [⟨10, 1024⟩] := by decide +kernel
  rw [done] at accessed
  have access : (⟨10, 1024⟩ : Access) ∈ outcome.accesses := by
    rw [Option.some.inj accessed]
    exact List.mem_singleton_self _
  obtain ⟨wrapper, table, entry, found, read, listed, within⟩ := confined _ access
  cases firstOpened_disk found
  cases read
  cases listed
  exact absurd (within 1 (by decide)).2 (by decide)

end EosBase.Block
