import EosBase.Initfs.Layout

/-!
# Initfs: what was built is read back

An image that `build_initfs` writes is opened by `InitFs::new`, and the walk that
the tests make over it, from the root inode through every directory, finds the
tree that was given to the builder.
-/

namespace EosBase.Initfs

open List InodeHeader InodeStruct InitFs

theorem writeInodes_eq {table index inodes file}
    (room : table + (index + inodes.length) * size < 2 ^ 32) : writeInodes table index inodes file =
      file.writeAllAt (inodes.flatMap encode) (table + index * size) := by
  induction inodes generalizing index file with
  | nil => exact (file.writeAllAt_nil _).symm
  | cons first rest ih =>
    have pieces := file.writeAllAt_take_drop ((first :: rest).flatMap encode)
      size (table + index * size)
    rw [flatMap_cons, take_left' first.length_encode, drop_left' first.length_encode,
      Nat.add_assoc, ← Nat.succ_mul] at pieces
    rw [length_cons, ← Nat.add_assoc, Nat.add_right_comm] at room
    rw [writeInodes, ih room, Nat.mod_eq_of_lt, flatMap_cons]
    · exact pieces
    · rw [Nat.add_right_comm, Nat.add_mul, Nat.add_mul] at room
      omega

variable {table : List InodeHeader} {inode : InodeHeader} {place : Nat} {data : List UInt8}

theorem elim_ok {piece?} {parse : List UInt8 → Nat} {entry : Nat}
    (done : piece?.elim (Except.error BuildError.panic) (.ok ∘ parse) = .ok entry) :
    ∃ piece, piece? = some piece ∧ parse piece = entry := by
  cases piece? with
  | none => cases done
  | some piece =>
    cases done
    exact ⟨piece, rfl, rfl⟩

theorem elfEntry_lt {entry} (done : elfEntry data = .ok entry) : entry < 2 ^ 64 := by
  have word : ∀ {piece : List UInt8} {start width : Nat}, width ≤ 8 →
      slice? data start (start + width) = some piece →
      ofLeBytes piece < 2 ^ 64 ∧ ofLeBytes piece.reverse < 2 ^ 64 := by
    intro piece start width narrow found
    have length : piece.length ≤ 8 := by
      have exact := (length_of_slice? found).1
      omega
    have wide : 256 ^ piece.length ≤ 2 ^ 64 :=
      (Nat.pow_le_pow_right (by decide) length).trans (by decide)
    have reversed := ofLeBytes_lt piece.reverse
    rw [length_reverse] at reversed
    exact ⟨(ofLeBytes_lt piece).trans_le wide, reversed.trans_le wide⟩
  unfold elfEntry at done
  split at done
  · split at done
    · obtain ⟨piece, found, rfl⟩ := elim_ok done
      exact (word (by decide) found).1
    · obtain ⟨piece, found, rfl⟩ := elim_ok done
      exact (word (by decide) found).2
    · obtain ⟨piece, found, rfl⟩ := elim_ok done
      exact (word (by decide) found).1
    · obtain ⟨piece, found, rfl⟩ := elim_ok done
      exact (word (by decide) found).2
    · cases done
  · cases done

/-- What a finished image says: its header, its inodes, and the tree of the root. -/
structure Built (image : Blob) (root : Entries) (header : Header) (table : List InodeHeader) :
    Prop extends Stored image.toList header table where
  root : ∃ inode, table[header.rootInode]? = some inode ∧
    Holds ⟨image, table, Initfs.pageSize, header.inodeTableOffset⟩ (.dir root) inode

variable {root : Entries} {image : Blob} {count : Nat} {header : Header}

theorem allocateContents_holds {state after inode} (sound : state.Sound)
    (done : allocateContents state root = .ok (inode, after)) :
    after.Sound ∧ inode < 2 ^ 16 ∧ state.offset ≤ after.offset ∧
      ∃ header, after.inodeTable[inode]? = some header ∧
        Holds (after.region state.offset) (.dir root) header := by
  obtain ⟨⟨filled, result⟩, written, allocated⟩ := ok_of_bind done
  obtain ⟨⟨reserved, placement⟩, reserve, rest⟩ := ok_of_bind written
  obtain ⟨entered, entries, finished⟩ := ok_of_bind rest
  cases finished
  obtain ⟨writes, _, size, _, _, room⟩ := reserveTable_ok sound reserve
  obtain ⟨kept, held⟩ := writeEntries_holds root writes.sound
    (show result.offset = result.offset + 0 * DirEntry.size by omega) (by omega) entries
  obtain ⟨whole, fits, tree⟩ := holds_dir sound reserve kept held
  obtain ⟨rfl, few, rfl⟩ := allocateInode_ok allocated
  refine ⟨whole.sound.addInode fits, few, whole.grows, inodeOf .dir result,
    getElem?_concat_length, ?_⟩
  have wider : (filled.region state.offset).Within
      ⟨filled.file, filled.inodeTable ++ [inodeOf .dir result], state.offset, filled.offset⟩ :=
    ⟨.refl _ _ _, prefix_append _ _, le_rfl, le_rfl⟩
  exact holds_within wider _ tree

theorem writeInodeTable_stores {state after offset} (sound : state.Sound)
    (done : writeInodeTable state = .ok (offset, after)) :
    offset = state.offset ∧ after.inodeTable = state.inodeTable ∧ after.file.size < 2 ^ 32 ∧
      state.file.Agree after.file 0 state.offset ∧
      (state.inodeTable ≠ [] → offset + state.inodeTable.length * size ≤ after.file.size) ∧
      after.file.read offset (state.inodeTable.length * size) =
        state.inodeTable.flatMap encode := by
  obtain ⟨_, rest⟩ := narrow_ok done
  obtain ⟨⟨start, reserved⟩, allocated, placed⟩ := ok_of_bind rest
  obtain ⟨_, finished⟩ := narrow_ok placed
  cases finished
  obtain ⟨rfl, moved, room, limit, _⟩ := bumpAlloc_ok allocated
  have bound : reserved.offset < 2 ^ 32 := limit.trans_lt sound.room
  rw [Nat.mul_comm] at room
  have sameTable : reserved.inodeTable = state.inodeTable := by rw [moved]
  have sameFile : reserved.file = state.file := by rw [moved]
  have length : (state.inodeTable.flatMap encode).length = state.inodeTable.length * size :=
    length_flatMap_sized length_encode
  have whole := @writeInodes_eq state.offset 0 state.inodeTable state.file (by
    rw [Nat.zero_add]
    omega)
  rw [sameTable, sameFile, whole, Nat.zero_mul, Nat.add_zero]
  refine ⟨rfl, rfl, ?_, state.file.agree_writeAllAt (.inl le_rfl), fun nonempty => ?_, ?_⟩
  · exact (Blob.writeAllAt_size_le (sound.ends.trans (by omega)) (length ▸ room)).trans_lt bound
  · rw [← length]
    apply Blob.end_le_writeAllAt
    apply ne_nil_of_length_pos
    rw [length]
    exact Nat.mul_pos (length_pos_iff.mpr nonempty) (by decide)
  · rw [← length]
    exact state.file.read_writeAllAt (state.inodeTable.flatMap encode) state.offset

theorem buildInitfs_built {maxSize bootstrapCode} (room : maxSize < 2 ^ 32)
    (done : buildInitfs maxSize bootstrapCode root = .ok image) :
    ∃ header table, Built image root header table := by
  obtain ⟨⟨headerOffset, start⟩, first, rest⟩ := ok_of_bind done
  obtain ⟨rfl, moved, page, limit, _⟩ := bumpAlloc_ok first
  have startSound : start.Sound := by
    rw [moved]
    refine ⟨by simpa [pageSize] using page, room, limit, Nat.zero_le _, ?_⟩
    intro inode member
    cases member
  obtain ⟨⟨booted, _⟩, copied, entering⟩ := ok_of_bind rest
  obtain ⟨bootstrapEntry, entered, filling⟩ := ok_of_bind entering
  obtain ⟨⟨rootInode, filled⟩, contents, tabling⟩ := ok_of_bind filling
  obtain ⟨⟨inodeTableOffset, tabled⟩, inodes, counting⟩ := ok_of_bind tabling
  obtain ⟨few, finished⟩ := narrow_ok counting
  cases finished
  have bootWrites := (allocateAndWriteFile_places startSound copied).1
  obtain ⟨sound, rootFits, grown, rootHeader, listed, tree⟩ :=
    allocateContents_holds bootWrites.sound contents
  obtain ⟨rfl, sameTable, small, kept, large, stored⟩ := writeInodeTable_stores sound inodes
  have bootPage := bootWrites.sound.page
  have tableNear : filled.offset < 2 ^ 32 := sound.limit.trans_lt sound.room
  have nonempty : filled.inodeTable ≠ [] := by
    intro empty
    rw [empty] at listed
    cases listed
  have reached := large nonempty
  generalize headerIs : Header.mk magic filled.offset tabled.file.size pageSize rootInode
    tabled.inodeTable.length bootstrapEntry = header
  have fits : header.Fits := by
    subst headerIs
    exact ⟨rfl, tableNear, small.trans (by decide),
      show pageSize < 2 ^ 16 by decide, rootFits, few, elfEntry_lt entered⟩
  have length := Header.length_encode fits
  simp only [pageSize] at bootPage
  have overhead : Header.size ≤ 4096 := by decide
  -- The header is written last, over bytes that nothing else uses.
  have above : ∀ high, tabled.file.Agree (tabled.file.writeAllAt header.encode 0)
      Header.size high := by
    intro high
    apply Blob.agree_writeAllAt
    exact .inr (by omega)
  have size : (tabled.file.writeAllAt header.encode 0).size = tabled.file.size := by
    apply Nat.le_antisymm
    · apply Blob.writeAllAt_size_le le_rfl
      omega
    · exact Blob.size_le_writeAllAt _ _ _
  have stays : Region.Within (filled.region booted.offset)
      ⟨tabled.file.writeAllAt header.encode 0, filled.inodeTable, pageSize, filled.offset⟩ := by
    refine ⟨?_, prefix_rfl, bootWrites.sound.page, le_rfl⟩
    change filled.file.Agree _ booted.offset filled.offset
    exact (kept.mono (Nat.zero_le _) le_rfl).trans ((above filled.offset).mono (by omega) le_rfl)
  have covers : filled.offset + filled.inodeTable.length * InodeHeader.size ≤
      (tabled.file.writeAllAt header.encode 0).size := size ▸ reached
  have long : Header.size ≤ (tabled.file.writeAllAt header.encode 0).size := by omega
  refine ⟨header, filled.inodeTable, ?_⟩
  subst headerIs
  refine ⟨⟨fits, rfl, rfl, congrArg List.length sameTable, ?_, ?_, ?_, ?_, sound.inodes⟩,
    rootHeader, listed, holds_within stays _ tree⟩
  · rw [Blob.length_toList, size]
    exact small
  · have written := tabled.file.read_writeAllAt
      (Header.encode ⟨magic, filled.offset, tabled.file.size, pageSize, rootInode,
        tabled.inodeTable.length, bootstrapEntry⟩) 0
    rw [length] at written
    rw [Blob.slice?_toList (Nat.zero_le _) long, Nat.sub_zero]
    exact congrArg some written
  · change Header.size ≤ filled.offset
    omega
  · change slice? _ filled.offset (filled.offset + _) = _
    rw [Blob.slice?_toList (Nat.le_add_right _ _) covers, Nat.add_sub_cancel_left,
      (above _).read (show Header.size ≤ filled.offset by omega) le_rfl, stored]

theorem records_read {Record : Type} {size} (positive : 0 < size)
    {decode : List UInt8 → Record} {file : Blob} {offset} :
    records size decode (file.read offset (count * size)) =
      (range count).map fun index => decode (file.read (offset + index * size) size) := by
  unfold records
  rw [Blob.length_read, Nat.mul_div_cancel _ positive]
  apply map_congr_left
  intro index member
  have next : (index + 1) * size ≤ count * size :=
    Nat.mul_le_mul_right _ (mem_range.mp member)
  rw [Nat.add_mul, Nat.one_mul] at next
  rw [file.take_drop_read next]

theorem Built.below (built : Built image root header table) :
    header.inodeTableOffset ≤ image.size := by
  rw [← Blob.length_toList]
  exact (Nat.le_add_right _ _).trans built.inside

def walkEntries (visit : Nat → Option EntryKind) (dir : InodeStruct) : Nat → Nat → Option Entries
  | 0, _ => some .nil
  | remaining + 1, idx => do
      let entry ← (dir.getEntry idx).toOption.join
      let name ← entry.name.toOption
      let kind ← visit entry.entry.inode
      let rest ← walkEntries visit dir remaining (idx + 1)
      return .cons name kind rest

/-- The tree under an inode, down to a depth.  There is none when the reader fails,
when an inode has no kind or when the tree is deeper. -/
def walk (initfs : InitFs) : Nat → Nat → Option EntryKind
  | 0, _ => none
  | depth + 1, inodeId => do
      let inode ← (initfs.getInode inodeId).toOption.join
      match inode.kind with
      | .file inner => do
          let data ← inner.data.toOption
          return .file data (inode.mode &&& 0o100 != 0)
      | .link inner => do
          let data ← inner.data.toOption
          return .link data
      | .dir inner => do
          let count ← inner.entryCount.toOption
          let entries ← walkEntries (walk initfs depth) inner count 0
          return .dir entries
      | .unknown => none

mutual

def EntryKind.depth : EntryKind → Nat
  | .file _ _ => 0
  | .link _ => 0
  | .dir entries => entries.depth + 1

def Entries.depth : Entries → Nat
  | .nil => 0
  | .cons _ kind rest => max kind.depth rest.depth

end

variable {result : WriteResult}

theorem data_placed {low high} (place : Nat) (ty : InodeType)
    (placed : Placed image low high data result) (inside : high ≤ image.size) :
    InodeStruct.data ⟨⟨image.toList⟩, place, inodeOf ty result⟩ = .ok data := by
  change orInvalid (slice? image.toList result.offset (result.offset + result.size)) = _
  rw [placed.size, Blob.slice?_toList (Nat.le_add_right _ _) (placed.below.trans inside),
    Nat.add_sub_cancel_left, placed.stored]
  rfl

theorem mode_executable (initfs : InitFs) (place : Nat) (executable : Bool) (result : WriteResult) :
    (mode ⟨initfs, place,
      inodeOf (if executable then .executableFile else .regularFile) result⟩ &&& 0o100 != 0) =
        executable := by
  have modes : mode ⟨initfs, place,
      inodeOf (if executable then .executableFile else .regularFile) result⟩ =
        if executable then 0o555 else 0o444 := by
    cases executable <;> rfl
  rw [modes]
  cases executable <;> decide

theorem entries_read (size : result.size = count * DirEntry.size)
    (inside : result.offset + result.size ≤ image.size) :
    entries ⟨⟨image.toList⟩, place, inodeOf .dir result⟩ =
      .ok ((range count).map fun index =>
        DirEntry.decode (image.read (result.offset + index * DirEntry.size) DirEntry.size)) := by
  change (orInvalid (slice? image.toList result.offset (result.offset + result.size))).map _ = _
  rw [Blob.slice?_toList (Nat.le_add_right _ _) inside, Nat.add_sub_cancel_left, size]
  exact congrArg Except.ok (records_read (by decide))

theorem getEntry_read {entry index} (size : result.size = count * DirEntry.size)
    (inside : result.offset + result.size ≤ image.size) (bound : index < count) (fits : entry.Fits)
    (encoded : image.read (result.offset + index * DirEntry.size) DirEntry.size = entry.encode) :
    getEntry ⟨⟨image.toList⟩, place, inodeOf .dir result⟩ index =
      .ok (some ⟨⟨image.toList⟩, entry⟩) := by
  unfold getEntry
  rw [entries_read size inside]
  change Except.ok (Option.map _ _) = _
  rw [getElem?_map, getElem?_range bound, Option.map_some, encoded, DirEntry.decode_encode fits]
  rfl

theorem name_read {entry region name position}
    (linked : Linked region name position entry inode) (same : region.file = image)
    (inside : region.high ≤ image.size) : Entry.name ⟨⟨image.toList⟩, entry⟩ = .ok name := by
  subst same
  unfold Entry.name
  rw [linked.length, Blob.slice?_toList (Nat.le_add_right _ _)
    (linked.nameBelow.trans inside), Nat.add_sub_cancel_left, linked.named]
  rfl

section Walk

mutual

theorem walk_holds (built : Built image root header table) :
    ∀ (kind : EntryKind) {fuel place : Nat} {inode : InodeHeader}, kind.depth < fuel →
      table[place]? = some inode →
      Holds ⟨image, table, pageSize, header.inodeTableOffset⟩ kind inode →
      walk ⟨image.toList⟩ fuel place = some kind
  | .file contents executable, fuel + 1, place, inode, _, found, ⟨result, same, placed⟩ => by
      subst same
      have inside := built.below
      have read := data_placed place
        (if executable then .executableFile else .regularFile) placed inside
      have bit := mode_executable ⟨image.toList⟩ place executable result
      rw [walk, built.getInode_read found]
      cases executable with
      | false | true =>
        change (data _).toOption.bind (fun data => some (EntryKind.file data _)) = _
        rw [read, bit]
        rfl
  | .link path, fuel + 1, place, inode, _, found, ⟨result, same, placed⟩ => by
      subst same
      have inside := built.below
      rw [walk, built.getInode_read found]
      change (InodeStruct.data _).toOption.bind _ = _
      rw [data_placed _ _ placed inside]
      rfl
  | .dir entries, fuel + 1, place, inode, deep, found,
      ⟨result, same, size, few, _, below, held⟩ => by
      subst same
      have inside : result.offset + result.size ≤ image.size :=
        below.trans built.below
      have count : entryCount ⟨⟨image.toList⟩, place, inodeOf .dir result⟩ =
          .ok entries.length := by
        unfold entryCount
        rw [entries_read size inside]
        change Except.ok (List.length (map _ _) % 2 ^ 32) = _
        rw [length_map, length_range, Nat.mod_eq_of_lt (by omega)]
      have children := walkEntries_holds built entries fuel place 0 size inside (Nat.zero_add _)
        (Nat.lt_of_succ_lt_succ deep) (by simpa using held)
      rw [walk, built.getInode_read found]
      change (entryCount _).toOption.bind _ = _
      rw [count]
      change (walkEntries _ _ _ _).bind _ = _
      rw [children]
      rfl

theorem walkEntries_holds (built : Built image root header table) :
    ∀ (entries : Entries) (fuel place index : Nat) {count : Nat} {result : WriteResult},
      result.size = count * DirEntry.size → result.offset + result.size ≤ image.size →
      index + entries.length = count → entries.depth < fuel →
      HoldsEntries ⟨image, table, pageSize, header.inodeTableOffset⟩
        (result.offset + index * DirEntry.size) entries →
      walkEntries (walk ⟨image.toList⟩ fuel) ⟨⟨image.toList⟩, place, inodeOf .dir result⟩
        entries.length index = some entries
  | .nil, _, _, _, _, _, _, _, _, _, _ => rfl
  | .cons name kind rest, fuel, place, index, count, result, size, inside, total, deep,
      ⟨⟨entry, inode, linked, held⟩, others⟩ => by
      rw [Entries.length] at total ⊢
      rw [Entries.depth] at deep
      have rests := walkEntries_holds built rest fuel place (index + 1) size inside (by omega)
        (by omega)
        (by rw [Nat.add_mul, Nat.one_mul, ← Nat.add_assoc]; exact others)
      have visited := walk_holds built kind (show kind.depth < fuel by omega) linked.listed held
      have labelled := name_read linked rfl built.below
      rw [walkEntries, getEntry_read size inside (by omega) linked.fits linked.encoded]
      change (Entry.name _).toOption.bind _ = _
      rw [labelled]
      change (walk _ _ _).bind _ = _
      rw [visited]
      change (walkEntries _ _ _ _).bind _ = _
      rw [rests]
      rfl

end

end Walk

/-- A tree that was built is read back as it was, from the root inode down. -/
theorem build_round_trip {maxSize : Nat} {bootstrapCode : List UInt8} {root : Entries}
    {image : Blob} (room : maxSize < 2 ^ 32)
    (done : buildInitfs maxSize bootstrapCode root = .ok image) :
    ∃ initfs rootInode, new image.toList (some 4096) = .ok initfs ∧
      initfs.rootInode = .ok rootInode ∧
      ∀ fuel, (EntryKind.dir root).depth < fuel →
        walk initfs fuel rootInode = some (.dir root) := by
  obtain ⟨header, table, built⟩ := buildInitfs_built room done
  obtain ⟨inode, listed, held⟩ := built.root
  refine ⟨⟨image.toList⟩, header.rootInode, built.opens, ?_, ?_⟩
  · unfold InitFs.rootInode
    rw [built.header_read]
    rfl
  · intro fuel deep
    exact walk_holds built (.dir root) deep listed held

def smallBootstrap : List UInt8 :=
  [0x7f, 0x45, 0x4c, 0x46, 1, 1] ++ replicate 22 0

def smallTree : Entries :=
  .cons [0x62] (.file smallBootstrap true)
    (.cons [0x66] (.dir (.cons [0x61] (.file [1, 2, 3] false) (.cons [0x6c] (.link [0x61]) .nil)))
      .nil)

theorem build_round_trip_small : ∃ image, buildInitfs 65536 smallBootstrap smallTree = .ok image ∧
      ∃ initfs rootInode, new image.toList (some 4096) = .ok initfs ∧
        initfs.rootInode = .ok rootInode ∧
        ∀ fuel, (EntryKind.dir smallTree).depth < fuel →
          walk initfs fuel rootInode = some (.dir smallTree) := by
  have succeeds : (buildInitfs 65536 smallBootstrap smallTree).isOk = true := by
    decide +kernel
  cases done : buildInitfs 65536 smallBootstrap smallTree with
  | error failure =>
    rw [done] at succeeds
    cases succeeds
  | ok image => exact ⟨image, rfl, build_round_trip (by decide) done⟩

end EosBase.Initfs
