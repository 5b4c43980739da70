import EosBase.Initfs.Builder
import EosBase.Lib.Fallible

/-!
# Initfs: what a builder leaves in an image

An image holds a tree in a range of its bytes when every file, link, name and
directory table of the tree lies in that range and says what the tree says.
Writing a tree makes its range hold it, and keeps what other ranges hold.
-/

namespace EosBase.Initfs

open List Blob

/-- The fields of the structure are as wide as the packed ones. -/
structure InodeHeader.Fits (inode : InodeHeader) : Prop where
  type : inode.type < 2 ^ 32
  length : inode.length < 2 ^ 32
  offset : inode.offset < 2 ^ 32

@[inherit_doc InodeHeader.Fits]
structure DirEntry.Fits (entry : DirEntry) : Prop where
  inode : entry.inode < 2 ^ 16
  nameLen : entry.nameLen < 2 ^ 16
  nameOffset : entry.nameOffset < 2 ^ 32

@[inherit_doc InodeHeader.Fits]
structure Header.Fits (header : Header) : Prop where
  magic : header.magic.length = 8
  inodeTableOffset : header.inodeTableOffset < 2 ^ 32
  initfsSize : header.initfsSize < 2 ^ 64
  pageSize : header.pageSize < 2 ^ 16
  rootInode : header.rootInode < 2 ^ 16
  inodeCount : header.inodeCount < 2 ^ 16
  bootstrapEntry : header.bootstrapEntry < 2 ^ 64

@[simp]
theorem InodeHeader.length_encode (inode : InodeHeader) :
    inode.encode.length = InodeHeader.size := by
  simp [encode, size]

@[simp]
theorem DirEntry.length_encode (entry : DirEntry) : entry.encode.length = DirEntry.size := by
  simp [encode, size]

variable {header : Header} {inode : InodeHeader} {entry : DirEntry} {offset : Nat}
  {state after : State} {size : Nat}

theorem Header.length_encode (fits : header.Fits) : header.encode.length = Header.size := by
  simp [encode, size, fits.magic]

theorem InodeHeader.decode_encode (fits : inode.Fits) :
    InodeHeader.decode inode.encode = inode := by
  obtain ⟨type, length, offset⟩ := fits
  simp_all [encode, decode, drop_append, ofLeBytes_leBytes]

theorem DirEntry.decode_encode (fits : entry.Fits) : DirEntry.decode entry.encode = entry := by
  obtain ⟨inode, nameLen, nameOffset⟩ := fits
  simp_all [encode, decode, drop_append, ofLeBytes_leBytes]

theorem Header.decode_encode (fits : header.Fits) : Header.decode header.encode = header := by
  obtain ⟨magic, inodeTableOffset, initfsSize, pageSize, rootInode, inodeCount, entry⟩ := fits
  simp_all [encode, decode, drop_append, drop_of_length_le, ofLeBytes_leBytes]

section Records

variable {Record : Type} {encode : Record → List UInt8} {items : List Record} {place : Nat}

theorem split_flatMap {item} (found : items[place]? = some item) :
    items.flatMap encode = (items.take place).flatMap encode ++
      (encode item ++ (items.drop (place + 1)).flatMap encode) := by
  obtain ⟨inside, rfl⟩ := List.getElem?_eq_some_iff.mp found
  rw [← flatMap_cons, ← drop_eq_getElem_cons inside, ← flatMap_append, take_append_drop]

variable (sized : ∀ item, (encode item).length = size)

include sized

theorem length_flatMap_sized : (items.flatMap encode).length = items.length * size := by
  simp [length_flatMap, sized, map_const']

theorem records_flatMap (positive : 0 < size) {decode : List UInt8 → Record}
    (read : ∀ item ∈ items, decode (encode item) = item) :
    records size decode (items.flatMap encode) = items := by
  unfold records
  rw [length_flatMap_sized sized, Nat.mul_div_cancel _ positive]
  apply ext_getElem (by simp)
  intro place _ inside
  have front : ((items.take place).flatMap encode).length = place * size := by
    rw [length_flatMap_sized sized, length_take, Nat.min_eq_left (Nat.le_of_lt inside)]
  rw [getElem_map, getElem_range, split_flatMap (getElem?_eq_getElem inside), ← front, drop_left,
    take_left' (sized _), read _ (getElem_mem inside)]

end Records

/-- The bytes of an image hold this header and these inodes. -/
structure Stored (base : List UInt8) (header : Header) (table : List InodeHeader) : Prop where
  fits : header.Fits
  magic : header.magic = Initfs.magic
  pageSize : header.pageSize = Initfs.pageSize
  count : header.inodeCount = table.length
  small : base.length < 2 ^ 32
  first : slice? base 0 Header.size = some header.encode
  behind : Header.size ≤ header.inodeTableOffset
  inodes : slice? base header.inodeTableOffset
      (header.inodeTableOffset + table.length * InodeHeader.size) =
    some (table.flatMap InodeHeader.encode)
  apt : ∀ inode ∈ table, inode.Fits

namespace Stored

variable {base : List UInt8} {table : List InodeHeader} (stored : Stored base header table)

include stored

theorem inside : header.inodeTableOffset + table.length * InodeHeader.size ≤ base.length :=
  (length_of_slice? stored.inodes).2.2

theorem header_read : InitFs.header ⟨base⟩ = .ok header := by
  unfold InitFs.header
  rw [stored.first]
  exact congrArg Except.ok (Header.decode_encode stored.fits)

theorem tableSize_read :
    InitFs.inodeTableSize ⟨base⟩ = .ok (table.length * InodeHeader.size) := by
  have few := stored.fits.inodeCount
  have whole : header.inodeCount * InodeHeader.size % 2 ^ 32 =
      header.inodeCount * InodeHeader.size := by
    apply Nat.mod_eq_of_lt
    simp only [InodeHeader.size]
    omega
  unfold InitFs.inodeTableSize
  rw [stored.header_read, ← stored.count]
  exact congrArg Except.ok whole

theorem opens : InitFs.new base (some Initfs.pageSize) = .ok ⟨base⟩ := by
  have inside := stored.inside
  have small := stored.small
  have behind := stored.behind
  unfold InitFs.new
  rw [if_neg (by omega), if_neg (by omega), stored.header_read]
  change (if header.magic ≠ Initfs.magic then _ else _) = _
  rw [if_neg (not_not.mpr stored.magic), if_neg (by omega), stored.tableSize_read]
  change (if 2 ^ 32 ≤ header.inodeTableOffset + table.length * InodeHeader.size then _ else _) = _
  rw [if_neg (by omega), Nat.mod_eq_of_lt small, if_neg (by omega), if_neg]
  simp [stored.pageSize]

theorem inodeTable_read : InitFs.inodeTable ⟨base⟩ = .ok table := by
  have inside := stored.inside
  have small := stored.small
  have whole : (header.inodeTableOffset + table.length * InodeHeader.size) % 2 ^ 64 =
      header.inodeTableOffset + table.length * InodeHeader.size := Nat.mod_eq_of_lt (by omega)
  unfold InitFs.inodeTable
  rw [stored.header_read, stored.tableSize_read]
  change (orPanic (slice? base header.inodeTableOffset _) >>= _) = _
  rw [whole, stored.inodes]
  change Except.ok (records InodeHeader.size InodeHeader.decode _) = _
  rw [records_flatMap InodeHeader.length_encode (by decide)
    fun inode member => InodeHeader.decode_encode (stored.apt inode member)]

theorem getInode_read {place} (found : table[place]? = some inode) :
    InitFs.getInode ⟨base⟩ place = .ok (some ⟨⟨base⟩, place, inode⟩) := by
  unfold InitFs.getInode
  rw [stored.inodeTable_read]
  change Except.ok (table[place]?.map _) = _
  rw [found]
  rfl

end Stored

theorem narrow_ok {Result : Type} {bits value : Nat} {error : BuildError} {result : Result}
    {next} (done : (narrow bits error value >>= next) = .ok result) :
    value < 2 ^ bits ∧ next value = .ok result := by
  unfold narrow at done
  split at done
  next fits => exact ⟨fits, done⟩
  · cases done

theorem bumpAlloc_ok (done : bumpAlloc state size = .ok (offset, after)) :
    offset = state.offset ∧ after = { state with offset := after.offset } ∧
      state.offset + size ≤ after.offset ∧ after.offset ≤ state.maxSize ∧
      after.offset % pageSize = 0 := by
  unfold bumpAlloc at done
  dsimp only at done
  split at done
  next room =>
    cases done
    refine ⟨rfl, rfl, ?_, room, Nat.mul_mod_left _ _⟩
    simp only [nextMultipleOf, pageSize]
    omega
  · cases done

/-- Behind the header, within 32 bits, and with nothing written behind the end
of what is in use. -/
structure State.Sound (state : State) : Prop where
  page : pageSize ≤ state.offset
  room : state.maxSize < 2 ^ 32
  limit : state.offset ≤ state.maxSize
  ends : state.file.size ≤ state.offset
  inodes : ∀ inode ∈ state.inodeTable, inode.Fits

/-- Of the bytes in use before, only those from `low` to `high` may differ. -/
structure Writes (before after : State) (low high : Nat) : Prop where
  sound : after.Sound
  grows : before.offset ≤ after.offset
  inodes : before.inodeTable <+: after.inodeTable
  below : before.file.Agree after.file 0 low
  between : before.file.Agree after.file high before.offset

namespace Writes

variable {first second third : State} {low high : Nat}

theorem refl (sound : first.Sound) (low high : Nat) : Writes first first low high :=
  ⟨sound, le_rfl, prefix_rfl, .refl _ _ _, .refl _ _ _⟩

theorem trans (earlier : Writes first second low high) (later : Writes second third low high) :
    Writes first third low high where
  sound := later.sound
  grows := earlier.grows.trans later.grows
  inodes := earlier.inodes.trans later.inodes
  below := earlier.below.trans later.below
  between := earlier.between.trans (later.between.mono le_rfl earlier.grows)

theorem widen {lower higher} (writes : Writes first second low high) (lowest : lower ≤ low)
    (highest : high ≤ higher) : Writes first second lower higher :=
  { writes with
    below := writes.below.mono le_rfl lowest
    between := writes.between.mono highest le_rfl }

theorem fresh (writes : Writes first second first.offset first.offset) (used : low ≤ first.offset)
    (high : Nat) : Writes first second low high :=
  { writes with
    below := writes.below.mono le_rfl used
    between := writes.below.mono (Nat.zero_le _) le_rfl }

end Writes

theorem bumpAlloc_writes (sound : state.Sound) (done : bumpAlloc state size = .ok (offset, after)) :
    Writes state after state.offset state.offset := by
  obtain ⟨_, moved, room, limit, _⟩ := bumpAlloc_ok done
  have grows : state.offset ≤ after.offset := by omega
  rw [moved]
  exact ⟨⟨sound.page.trans grows, sound.room, limit, sound.ends.trans grows,
    sound.inodes⟩, grows, prefix_rfl, .refl _ _ _, .refl _ _ _⟩

structure Placed (file : Blob) (low high : Nat) (data : List UInt8) (result : WriteResult) :
    Prop where
  size : result.size = data.length
  short : data.length < 2 ^ 32
  above : low ≤ result.offset
  below : result.offset + data.length ≤ high
  near : result.offset < 2 ^ 32
  stored : file.read result.offset data.length = data

variable {data : List UInt8} {result : WriteResult}

theorem bumpAlloc_places (sound : state.Sound) (short : data.length < 2 ^ 32)
    (done : bumpAlloc state data.length = .ok (offset, after)) (near : offset < 2 ^ 32) :
    let file := after.file.writeAllAt data offset
    Writes state { after with file } state.offset state.offset ∧
      Placed file state.offset after.offset data ⟨data.length, offset⟩ := by
  have writes := bumpAlloc_writes sound done
  obtain ⟨rfl, _, room, _, _⟩ := bumpAlloc_ok done
  have kept : after.file.Agree (after.file.writeAllAt data state.offset) 0 state.offset :=
    after.file.agree_writeAllAt (.inl le_rfl)
  refine ⟨⟨{ writes.sound with ends := ?_ }, writes.grows, writes.inodes,
    writes.below.trans kept, fun position above below => absurd below (Nat.not_lt.mpr above)⟩,
    rfl, short, le_rfl, room, near, after.file.read_writeAllAt _ _⟩
  exact writeAllAt_size_le writes.sound.ends room

/-- The chunks make up the rest of the file. -/
theorem writeChunks_eq (inside : offset + data.length < 2 ^ 32)
    (short : data.length + bufferSize ≤ 2 ^ 32) {rounds relative file}
    (enough : data.length ≤ relative + rounds) :
    writeChunks data data.length offset rounds relative file =
      file.writeAllAt (data.drop relative) (offset + relative) := by
  induction rounds generalizing relative file with
  | zero =>
    rw [Nat.add_zero] at enough
    rw [drop_of_length_le enough, writeAllAt_nil, writeChunks]
  | succ rounds ih =>
    rw [writeChunks]
    split
    next more =>
      have positive : 0 < bufferSize := by decide
      rw [Nat.mod_eq_of_lt (by omega), Nat.mod_eq_of_lt (by omega), ih (by omega),
        ← file.writeAllAt_take_drop (data.drop relative) bufferSize (offset + relative),
        drop_drop, Nat.add_assoc, ← length_drop, ← take_eq_take_min]
    next reached =>
      rw [drop_of_length_le (Nat.le_of_not_lt reached), writeAllAt_nil]

theorem allocateAndWriteFile_places (sound : state.Sound)
    (done : allocateAndWriteFile state data = .ok (after, result)) :
    Writes state after state.offset state.offset ∧
      Placed after.file state.offset after.offset data result := by
  obtain ⟨short, rest⟩ := narrow_ok done
  obtain ⟨⟨offset, reserved⟩, allocated, placed⟩ := ok_of_bind rest
  obtain ⟨near, finished⟩ := narrow_ok placed
  cases finished
  obtain ⟨rfl, _, room, limit, aligned⟩ := bumpAlloc_ok allocated
  have page := sound.page
  have bound := sound.room
  simp only [pageSize] at aligned page
  -- The end is a multiple of the page size below 2 ^ 32, so a page is left.
  have spare : data.length + bufferSize ≤ 2 ^ 32 := by
    simp only [bufferSize]
    omega
  rw [writeChunks_eq (by omega) spare (Nat.zero_add _).ge]
  exact bumpAlloc_places sound short allocated near

theorem allocateAndWriteLink_places (sound : state.Sound)
    (done : allocateAndWriteLink state data = .ok (after, result)) :
    Writes state after state.offset state.offset ∧
      Placed after.file state.offset after.offset data result := by
  obtain ⟨short, rest⟩ := narrow_ok done
  obtain ⟨⟨offset, reserved⟩, allocated, placed⟩ := ok_of_bind rest
  obtain ⟨near, finished⟩ := narrow_ok placed
  cases finished
  exact bumpAlloc_places sound short allocated near

/-- A range of an image, with the inodes that its directories refer to. -/
structure Region where
  file : Blob
  inodeTable : List InodeHeader
  low : Nat
  high : Nat

structure Region.Within (small large : Region) : Prop where
  agree : small.file.Agree large.file small.low small.high
  inodes : small.inodeTable <+: large.inodeTable
  low : large.low ≤ small.low
  high : small.high ≤ large.high

/-- The entry of a directory at a position of its table. -/
structure Linked (region : Region) (name : List UInt8) (position : Nat) (entry : DirEntry)
    (inode : InodeHeader) : Prop where
  above : region.low ≤ position
  below : position + DirEntry.size ≤ region.high
  encoded : region.file.read position DirEntry.size = entry.encode
  fits : entry.Fits
  length : entry.nameLen = name.length
  nameAbove : region.low ≤ entry.nameOffset
  nameBelow : entry.nameOffset + name.length ≤ region.high
  named : region.file.read entry.nameOffset name.length = name
  listed : region.inodeTable[entry.inode]? = some inode

def inodeOf (ty : InodeType) (result : WriteResult) : InodeHeader :=
  ⟨ty.toNat, result.size, result.offset⟩

mutual

def Holds (region : Region) : EntryKind → InodeHeader → Prop
  | .file contents executable, inode =>
    ∃ result, inode = inodeOf (if executable then .executableFile else .regularFile) result ∧
      Placed region.file region.low region.high contents result
  | .link path, inode =>
    ∃ result, inode = inodeOf .link result ∧
      Placed region.file region.low region.high path result
  | .dir entries, inode =>
    ∃ result, inode = inodeOf .dir result ∧
      result.size = entries.length * DirEntry.size ∧ entries.length < 2 ^ 16 ∧
      result.offset < 2 ^ 32 ∧ result.offset + result.size ≤ region.high ∧
      HoldsEntries region result.offset entries

def HoldsEntries (region : Region) (position : Nat) : Entries → Prop
  | .nil => True
  | .cons name kind rest =>
    (∃ entry inode, Linked region name position entry inode ∧ Holds region kind inode) ∧
      HoldsEntries region (position + DirEntry.size) rest

end

variable {small large : Region} {name : List UInt8} {position : Nat}

theorem Placed.within (placed : Placed small.file small.low small.high data result)
    (within : small.Within large) :
    Placed large.file large.low large.high data result :=
  { placed with
    above := within.low.trans placed.above
    below := placed.below.trans within.high
    stored := (within.agree.read placed.above placed.below).trans placed.stored }

section

variable (linked : Linked small name position entry inode)

include linked

theorem Linked.carry (slot : small.file.Agree large.file position (position + DirEntry.size))
    (label : small.file.Agree large.file entry.nameOffset (entry.nameOffset + name.length))
    (inodes : small.inodeTable <+: large.inodeTable) (low : large.low ≤ small.low)
    (high : small.high ≤ large.high) : Linked large name position entry inode where
  above := low.trans linked.above
  below := linked.below.trans high
  encoded := (slot.read le_rfl le_rfl).trans linked.encoded
  fits := linked.fits
  length := linked.length
  nameAbove := low.trans linked.nameAbove
  nameBelow := linked.nameBelow.trans high
  named := (label.read le_rfl le_rfl).trans linked.named
  listed := by
    obtain ⟨added, extended⟩ := inodes
    have inside := (List.getElem?_eq_some_iff.mp linked.listed).1
    rw [← extended, List.getElem?_append_left inside]
    exact linked.listed

theorem Linked.within (within : small.Within large) : Linked large name position entry inode :=
  linked.carry (within.agree.mono linked.above linked.below)
    (within.agree.mono linked.nameAbove linked.nameBelow) within.inodes within.low within.high

end

mutual

theorem holds_within (within : small.Within large) :
    ∀ (kind : EntryKind) {inode : InodeHeader}, Holds small kind inode → Holds large kind inode
  | .file _ _, _, ⟨result, same, placed⟩ => ⟨result, same, placed.within within⟩
  | .link _, _, ⟨result, same, placed⟩ => ⟨result, same, placed.within within⟩
  | .dir entries, _, ⟨result, same, size, few, near, below, held⟩ =>
    ⟨result, same, size, few, near, below.trans within.high,
      holdsEntries_within within entries held⟩

theorem holdsEntries_within (within : small.Within large) :
    ∀ (entries : Entries) {position : Nat}, HoldsEntries small position entries →
      HoldsEntries large position entries
  | .nil, _, _ => trivial
  | .cons _ kind rest, _, ⟨⟨entry, inode, linked, held⟩, others⟩ =>
    ⟨⟨entry, inode, linked.within within, holds_within within kind held⟩,
      holdsEntries_within within rest others⟩

end

variable {ty : InodeType}

theorem allocateInode_ok {inode} (done : allocateInode state ty result = .ok (inode, after)) :
    inode = state.inodeTable.length ∧ inode < 2 ^ 16 ∧
      after = { state with inodeTable := state.inodeTable ++ [inodeOf ty result] } := by
  obtain ⟨few, finished⟩ := narrow_ok done
  cases finished
  exact ⟨rfl, few, rfl⟩

theorem inodeOf_fits (size : result.size < 2 ^ 32)
    (offset : result.offset < 2 ^ 32) : (inodeOf ty result).Fits := by
  refine ⟨?_, size, offset⟩
  cases ty <;> simp [inodeOf, InodeType.toNat]

theorem State.Sound.addInode (sound : state.Sound) (fits : inode.Fits) :
    State.Sound { state with inodeTable := state.inodeTable ++ [inode] } := by
  refine ⟨sound.page, sound.room, sound.limit, sound.ends, ?_⟩
  intro listed member
  rcases mem_append.mp member with earlier | added
  · exact sound.inodes listed earlier
  · rw [mem_singleton.mp added]
    exact fits

def State.region (state : State) (low : Nat) : Region :=
  ⟨state.file, state.inodeTable, low, state.offset⟩

theorem linkEntry_links {table index} (sound : state.Sound) (fits : (inodeOf ty result).Fits)
    (slot : position = table + index * DirEntry.size)
    (used : position + DirEntry.size ≤ state.offset)
    (done : linkEntry state table index name ty result = .ok after) :
    Writes state after position (position + DirEntry.size) ∧
      ∃ entry, Linked (after.region table) name position entry (inodeOf ty result) ∧
        state.offset ≤ entry.nameOffset := by
  obtain ⟨_, rest⟩ := narrow_ok done
  obtain ⟨⟨inode, listing⟩, allocated, named⟩ := ok_of_bind rest
  obtain ⟨rfl, few, rfl⟩ := allocateInode_ok allocated
  obtain ⟨brief, reserve⟩ := narrow_ok named
  obtain ⟨⟨nameOffset, reserved⟩, placed, stored⟩ := ok_of_bind reserve
  obtain ⟨near, finished⟩ := narrow_ok stored
  cases finished
  have writes := bumpAlloc_writes (sound.addInode fits) placed
  obtain ⟨rfl, moved, room, _, _⟩ := bumpAlloc_ok placed
  dsimp only at room near writes
  have whole : position % 2 ^ 32 = position := Nat.mod_eq_of_lt (by omega)
  rw [← slot, whole]
  generalize entryIs : DirEntry.mk state.inodeTable.length name.length state.offset = entry
  -- The name goes to a fresh place, the entry to its slot in the table.
  have nameKept : ∀ {low high : Nat}, high ≤ state.offset →
      reserved.file.Agree (reserved.file.writeAllAt name state.offset) low high :=
    fun below => reserved.file.agree_writeAllAt (.inl below)
  have slotKept : ∀ {low high : Nat}, high ≤ position ∨ position + DirEntry.size ≤ low →
      (reserved.file.writeAllAt name state.offset).Agree
        ((reserved.file.writeAllAt name state.offset).writeAllAt entry.encode position)
        low high := by
    intro low high apart
    apply agree_writeAllAt
    exact apart
  have fileKept : reserved.file = state.file := by rw [moved]
  have ends := writes.sound.ends
  refine ⟨⟨{ writes.sound with ends := ?_ }, writes.grows, ?_, ?_, ?_⟩, entry, ?_, ?_⟩
  · apply writeAllAt_size_le (writeAllAt_size_le ends room)
    rw [DirEntry.length_encode]
    omega
  · exact (prefix_append _ _).trans writes.inodes
  · rw [← fileKept]
    exact (nameKept (by omega)).trans (slotKept (.inl le_rfl))
  · rw [← fileKept]
    exact (nameKept le_rfl).trans (slotKept (.inr le_rfl))
  · subst entryIs
    refine ⟨?_, ?_, ?_, ⟨few, brief, near⟩, rfl, ?_, room, ?_, ?_⟩
    · exact slot ▸ Nat.le_add_right _ _
    · exact used.trans writes.grows
    · have written := (reserved.file.writeAllAt name state.offset).read_writeAllAt
        (DirEntry.encode ⟨state.inodeTable.length, name.length, state.offset⟩) position
      exact written
    · dsimp only [State.region]
      omega
    · exact ((slotKept (.inr used)).read le_rfl le_rfl).trans (reserved.file.read_writeAllAt _ _)
    · rw [moved]
      exact List.getElem?_concat_length
  · subst entryIs
    exact le_rfl

theorem Placed.fits {file low high} (placed : Placed file low high data result)
    (ty : InodeType) : (inodeOf ty result).Fits :=
  inodeOf_fits (placed.size ▸ placed.short) placed.near

theorem reserveTable_ok {count} (sound : state.Sound)
    (done : reserveTable state count = .ok (after, result)) :
    Writes state after state.offset state.offset ∧ result.offset = state.offset ∧
      result.size = count * DirEntry.size ∧ count < 2 ^ 16 ∧ result.offset < 2 ^ 32 ∧
      result.offset + result.size ≤ after.offset := by
  obtain ⟨few, rest⟩ := narrow_ok done
  obtain ⟨⟨offset, reserved⟩, allocated, placed⟩ := ok_of_bind rest
  obtain ⟨near, finished⟩ := narrow_ok placed
  cases finished
  obtain ⟨same, _, room, _, _⟩ := bumpAlloc_ok allocated
  subst same
  exact ⟨bumpAlloc_writes sound allocated, rfl, rfl, few, near, room⟩

theorem holds_dir {reserved entries} (sound : state.Sound)
    (reserve : reserveTable state entries.length = .ok (reserved, result))
    (filled : Writes reserved after result.offset (result.offset + entries.length * DirEntry.size))
    (held : HoldsEntries (after.region result.offset) result.offset entries) :
    Writes state after state.offset state.offset ∧ (inodeOf .dir result).Fits ∧
      Holds (after.region state.offset) (.dir entries) (inodeOf .dir result) := by
  obtain ⟨writes, start, size, few, near, room⟩ := reserveTable_ok sound reserve
  have kept : state.file.Agree after.file 0 state.offset :=
    writes.below.trans (start ▸ filled.below)
  refine ⟨⟨filled.sound, writes.grows.trans filled.grows,
    writes.inodes.trans filled.inodes, kept, ?_⟩, ?_, ?_⟩
  · intro position above below
    exact absurd below (Nat.not_lt.mpr above)
  · refine inodeOf_fits ?_ near
    simp only [size, DirEntry.size]
    omega
  · exact ⟨result, rfl, size, few, near, room.trans filled.grows, start ▸ held⟩

mutual

theorem writeKind_holds :
    ∀ (kind : EntryKind) {state after : State} {result : WriteResult} {ty : InodeType},
      state.Sound → writeKind state kind = .ok (after, result, ty) →
      Writes state after state.offset state.offset ∧ (inodeOf ty result).Fits ∧
        Holds (after.region state.offset) kind (inodeOf ty result)
  | .file contents executable, state, after, result, ty, sound, done => by
      rw [writeKind] at done
      obtain ⟨⟨written, placement⟩, copied, finished⟩ := ok_of_bind done
      cases finished
      obtain ⟨writes, placed⟩ := allocateAndWriteFile_places sound copied
      exact ⟨writes, placed.fits _, result, rfl, placed⟩
  | .link path, state, after, result, ty, sound, done => by
      rw [writeKind] at done
      obtain ⟨⟨written, placement⟩, copied, finished⟩ := ok_of_bind done
      cases finished
      obtain ⟨writes, placed⟩ := allocateAndWriteLink_places sound copied
      exact ⟨writes, placed.fits _, result, rfl, placed⟩
  | .dir entries, state, after, result, ty, sound, done => by
      rw [writeKind] at done
      obtain ⟨⟨reserved, placement⟩, reserve, rest⟩ := ok_of_bind done
      obtain ⟨written, filled, finished⟩ := ok_of_bind rest
      cases finished
      obtain ⟨writes, _, size, _, _, room⟩ := reserveTable_ok sound reserve
      obtain ⟨kept, held⟩ := writeEntries_holds entries writes.sound
        (show result.offset = result.offset + 0 * DirEntry.size by omega)
        (by omega) filled
      exact holds_dir sound reserve kept held

theorem writeEntries_holds :
    ∀ (entries : Entries) {state after : State} {table index position : Nat},
      state.Sound → position = table + index * DirEntry.size →
      position + entries.length * DirEntry.size ≤ state.offset →
      writeEntries state table index entries = .ok after →
      Writes state after position (position + entries.length * DirEntry.size) ∧
        HoldsEntries (after.region table) position entries
  | .nil, state, after, table, index, position, sound, slot, used, done => by
      rw [writeEntries] at done
      cases done
      exact ⟨.refl sound _ _, trivial⟩
  | .cons name kind rest, state, after, table, index, position, sound, slot, used, done => by
      rw [writeEntries] at done
      obtain ⟨⟨contained, result, ty⟩, written, remaining⟩ := ok_of_bind done
      obtain ⟨linked, link, others⟩ := ok_of_bind remaining
      have slots : (Entries.cons name kind rest).length * DirEntry.size =
          DirEntry.size + rest.length * DirEntry.size := by
        simp only [Entries.length, Nat.add_mul, Nat.one_mul]
        omega
      rw [slots] at used ⊢
      obtain ⟨fresh, fits, held⟩ := writeKind_holds kind sound written
      have grown := fresh.grows
      obtain ⟨linkWrites, entry, linkage, nameAbove⟩ :=
        linkEntry_links fresh.sound fits slot (by omega) link
      have linkGrown := linkWrites.grows
      obtain ⟨restWrites, restHeld⟩ := writeEntries_holds rest linkWrites.sound
        (show position + DirEntry.size = table + (index + 1) * DirEntry.size by
          rw [slot, Nat.add_mul, Nat.one_mul]
          omega)
        (by omega) others
      have restGrown := restWrites.grows
      have low : table ≤ state.offset := by omega
      -- The contents lie behind every table slot that is filled from here on.
      have contents : Region.Within (contained.region state.offset) (after.region table) := by
        refine ⟨?_, linkWrites.inodes.trans restWrites.inodes, low, ?_⟩
        · change contained.file.Agree after.file state.offset contained.offset
          exact (linkWrites.between.mono (by omega) le_rfl).trans
            (restWrites.between.mono (by omega) linkGrown)
        · exact linkGrown.trans restGrown
      have nameBelow := linkage.nameBelow
      dsimp only [State.region] at nameBelow
      have entryKept : Linked (after.region table) name position entry (inodeOf ty result) := by
        apply linkage.carry
        · exact restWrites.below.mono (Nat.zero_le _) le_rfl
        · exact restWrites.between.mono (by omega) nameBelow
        · exact restWrites.inodes
        · exact le_rfl
        · exact restGrown
      refine ⟨?_, ⟨entry, inodeOf ty result, entryKept, holds_within contents kind held⟩, restHeld⟩
      apply (fresh.fresh (by omega) _).trans
      apply (linkWrites.widen le_rfl (by omega)).trans
      exact restWrites.widen (by omega) (by omega)

end

end EosBase.Initfs
