import EosBase.Initfs.Safety

/-!
# Initfs: listings

`getdents` fails when its buffer is full, so that a page is lost with the entry
that does not fit on it.  What a caller gets who goes on behind the last entry is
all of a directory only if that fits on the first page.
-/

namespace EosBase.Initfs

open Redox InitFsScheme List Nat

/-- What `DirentBuf` of the `syscall` crate decides: `record` is the length of the record of a
name, and `largest` the largest that there are records of. -/
structure Dirents (Buffer : Type) where
  new : Nat → Buffer
  entry : Buffer → Name → Nat → Except Errno Buffer
  entries : Buffer → List (Name × Nat)
  room : Buffer → Nat
  record : Name → Nat
  largest : Nat

variable {Buffer : Type} {dirents : Dirents Buffer}

namespace Dirents

def Fits (dirents : Dirents Buffer) (name : Name) (room : Nat) : Prop :=
  dirents.record name ≤ dirents.largest ∧ dirents.record name ≤ room

/-- A new buffer is empty.  An entry goes behind the others and takes the length of its record,
or is refused when it does not fit. -/
structure Lawful (dirents : Dirents Buffer) : Prop where
  entries_new : ∀ size, dirents.entries (dirents.new size) = []
  room_new : ∀ size, dirents.room (dirents.new size) = size
  takes : ∀ buf name next, dirents.Fits name (dirents.room buf) →
    ∃ after, dirents.entry buf name next = .ok after ∧
      dirents.entries after = dirents.entries buf ++ [(name, next)] ∧
      dirents.room after = dirents.room buf - dirents.record name
  refuses : ∀ buf name next, ¬ dirents.Fits name (dirents.room buf) →
    ∃ error, dirents.entry buf name next = .error error

def FitAll (dirents : Dirents Buffer) (names : List Name) (room : Nat) : Prop :=
  (∀ name ∈ names, dirents.record name ≤ dirents.largest) ∧
    (names.map dirents.record).sum ≤ room

/-- How a call ends that has these names left, the first of which is at this index. -/
def Filled (dirents : Dirents Buffer) (buf : Buffer) (names : List Name) (index : Nat) :
    Served Buffer → Prop
  | .ok after => dirents.FitAll names (dirents.room buf) ∧
      dirents.entries after = dirents.entries buf ++ names.zipIdx (index + 1)
  | .error _ => ¬ dirents.FitAll names (dirents.room buf)

theorem fitAll_cons {name names room} : dirents.FitAll (name :: names) room ↔
    dirents.Fits name room ∧ dirents.FitAll names (room - dirents.record name) := by
  simp only [FitAll, Fits, forall_mem_cons, map_cons, sum_cons]
  grind

end Dirents

namespace InitFsScheme

/-- One call of `getdents` by a caller who goes on behind the last entry. -/
def pageTurn (scheme : InitFsScheme) (dirents : Dirents Buffer) (rounds id size : Nat)
    (state : Nat × List Name) :
    Turn (Nat × List Name) (Option (Served (List Name))) :=
  match scheme.getdents dirents.entry rounds id (dirents.new size) state.1 with
  | none => .done none
  | some (.error fault) => .done (some (.error fault))
  | some (.ok buf) =>
    match (dirents.entries buf).getLast? with
    | none => .done (some (.ok state.2))
    | some last => .again (last.2, state.2 ++ (dirents.entries buf).map Prod.fst)

/-- The names that repeated calls return, each with a buffer of this size. -/
def listing (scheme : InitFsScheme) (dirents : Dirents Buffer) (rounds id size calls : Nat) :
    Option (Option (Served (List Name))) :=
  loop (scheme.pageTurn dirents rounds id size) calls (0, [])

end InitFsScheme

structure InodeStruct.Names (dir : InodeStruct) (names : List Name)
    (entries : List DirEntry) : Prop where
  read : dir.entries = .ok entries
  few : names.length < 2 ^ 32
  named : entries.map (fun entry => Entry.name ⟨dir.initfs, entry⟩) = names.map .ok
  text : ∀ name ∈ names, ByteArray.validateUTF8 ⟨name.toArray⟩

def InitFsScheme.Lists (scheme : InitFsScheme) (id : Nat) (names : List Name) : Prop :=
  ∃ dir entries, (scheme.asNode id).bind (getInode scheme.fs) = .ok dir ∧ dir.kind = .dir dir ∧
    dir.Names names entries

variable {names : List Name} {dir : InodeStruct} {entries : List DirEntry}
  {offset rounds index : Nat} {buf : Buffer}

namespace InodeStruct.Names

variable (valid : dir.Names names entries)

include valid

theorem length_eq : entries.length = names.length := by
  simpa using congrArg length valid.named

theorem next_none (behind : names.length ≤ offset) :
    ∃ rest, Iter.next ⟨dir, offset⟩ = (none, rest) := by
  refine ⟨_, Prod.ext ?_ rfl⟩
  rw [Iter.next_ok valid.read, getElem?_eq_none (valid.length_eq ▸ behind), Option.map_none]

theorem next_some (inside : offset < names.length) :
    ∃ entry, Iter.next ⟨dir, offset⟩ = (some (.ok entry), ⟨dir, offset + 1⟩) ∧
      entry.name = .ok names[offset] := by
  have few := valid.few
  have present : offset < entries.length := valid.length_eq ▸ inside
  have found := getElem?_eq_getElem present
  refine ⟨⟨dir.initfs, entries[offset]⟩, Prod.ext ?_ ?_, ?_⟩
  · rw [Iter.next_ok valid.read, found, Option.map_some]
  · have small : (offset + 1) % 2 ^ 32 = offset + 1 := mod_eq_of_lt (by omega)
    simp only [Iter.next, small]
  · simpa [found, inside] using congrArg (·[offset]?) valid.named

/-- The loop fills the buffer with what is left of the directory, or fails. -/
theorem loop_fills (lawful : dirents.Lawful) (enough : names.length - offset < rounds) :
    ∃ served, loop (dentsTurn dirents.entry) rounds (⟨dir, offset⟩, index, buf) = some served ∧
      dirents.Filled buf (names.drop offset) index served := by
  induction rounds generalizing offset index buf with
  | zero => exact absurd enough (not_lt_zero _)
  | succ rounds ih =>
    rw [loop, dentsTurn]
    rcases lt_or_ge offset names.length with inside | behind
    · obtain ⟨entry, came, named⟩ := valid.next_some inside
      rw [drop_eq_getElem_cons inside]
      simp only [came, named, orEio, valid.text _ (getElem_mem inside), if_true]
      by_cases fits : dirents.Fits names[offset] (dirents.room buf)
      · obtain ⟨after, taken, listed, left⟩ := lawful.takes buf names[offset] (index + 1) fits
        obtain ⟨served, played, filled⟩ := @ih (offset + 1) (index + 1) after (by omega)
        simp only [taken]
        refine ⟨served, played, ?_⟩
        cases served with
        | ok last =>
          rw [Dirents.Filled, left, listed] at filled
          refine ⟨Dirents.fitAll_cons.mpr ⟨fits, filled.1⟩, ?_⟩
          rw [filled.2, zipIdx_cons, append_assoc, singleton_append]
        | error fault =>
          rw [Dirents.Filled, left] at filled
          exact fun all => filled (Dirents.fitAll_cons.mp all).2
      · obtain ⟨error, refused⟩ := lawful.refuses buf names[offset] (index + 1) fits
        simp only [refused]
        exact ⟨_, rfl, fun all => fits (Dirents.fitAll_cons.mp all).1⟩
    · obtain ⟨rest, ended⟩ := valid.next_none behind
      rw [drop_of_length_le behind, ended]
      exact ⟨_, rfl, ⟨forall_mem_nil _, zero_le _⟩, (append_nil _).symm⟩

end InodeStruct.Names

/-- The pages of a directory are all its names just if they fit on the first. -/
theorem listing_complete_iff (lawful : dirents.Lawful) {scheme : InitFsScheme} {id size : Nat}
    (valid : scheme.Lists id names) (enough : names.length < rounds) :
    (∃ calls, scheme.listing dirents rounds id size calls = some (some (.ok names))) ↔
      (∀ name ∈ names, dirents.record name ≤ dirents.largest) ∧
        (names.map dirents.record).sum ≤ size := by
  obtain ⟨dir, entries, found, kind, holds⟩ := valid
  have page {offset : Nat} (inside : offset ≤ names.length) : ∃ served,
      scheme.getdents dirents.entry rounds id (dirents.new size) offset = some served ∧
        dirents.Filled (dirents.new size) (names.drop offset) 0 served := by
    have few := holds.few
    rw [getdents, if_neg (by omega), found]
    simp only [kind]
    exact holds.loop_fills lawful (by omega)
  obtain ⟨first, called, filled⟩ := page (zero_le _)
  rw [drop_zero] at filled
  cases first with
  | error fault =>
    rw [Dirents.Filled, lawful.room_new] at filled
    refine iff_of_false ?_ filled
    rintro ⟨calls, listed⟩
    cases calls with
    | zero => cases listed
    | succ calls =>
      rw [listing, loop, pageTurn, called] at listed
      cases listed
  | ok buf =>
    rw [Dirents.Filled, lawful.room_new, lawful.entries_new, nil_append] at filled
    refine iff_of_true ⟨2, ?_⟩ filled.1
    rw [listing, loop, pageTurn, called]
    rcases names.eq_nil_or_concat' with rfl | ⟨front, name, rfl⟩
    · simp [filled.2]
    · -- The position behind the last entry is the length of the directory.
      have behind : ((front ++ [name]).zipIdx 1).getLast? =
          some (name, (front ++ [name]).length) := by
        simp [zipIdx_append, add_comm]
      obtain ⟨second, calledAgain, nothing⟩ := page (le_refl _)
      rw [drop_length] at nothing
      cases second with
      | error fault => exact absurd ⟨forall_mem_nil _, zero_le _⟩ nothing
      | ok last =>
        rw [Dirents.Filled, lawful.entries_new] at nothing
        simp only [filled.2, behind, nil_append]
        rw [loop, pageTurn, calledAgain]
        simp [nothing.2]

/-- Records of 19 bytes, the name and a zero byte, rounded up to words, in a buffer with so
many bytes left. -/
def wordDirents : Dirents (Nat × List (Name × Nat)) where
  new size := (size, [])
  entry buf name next :=
    let record := (19 + name.length + 1 + 7) / 8 * 8
    if record ≤ 65535 ∧ record ≤ buf.1 then .ok (buf.1 - record, buf.2 ++ [(name, next)])
    else .error .EINVAL
  entries buf := buf.2
  room buf := buf.1
  record name := (19 + name.length + 1 + 7) / 8 * 8
  largest := 65535

theorem wordDirents_lawful : wordDirents.Lawful where
  entries_new _ := rfl
  room_new _ := rfl
  takes _ _ _ fits := ⟨_, if_pos fits, rfl, rfl⟩
  refuses _ _ _ unfit := ⟨_, if_neg unfit⟩

def pairScheme : InitFsScheme := ⟨Table.empty.insert 1 (.node 0 []), 1, ⟨pairImage⟩⟩

theorem pairScheme_lists : pairScheme.Lists 1 [[0x61], [0x62]] := by
  refine ⟨⟨⟨pairImage⟩, 0, ⟨2, 16, 46⟩⟩, [⟨0, 1, 62⟩, ⟨0, 1, 63⟩], rfl, rfl, rfl, ?_, rfl, ?_⟩
  · decide
  · decide

theorem listing_complete_pair : ∃ calls,
    pairScheme.listing wordDirents 3 1 48 calls = some (some (.ok [[0x61], [0x62]])) :=
  (listing_complete_iff wordDirents_lawful pairScheme_lists (by decide)).mpr (by decide)

/-- With a buffer for one of the two entries, the first page is lost. -/
theorem listing_page_lost : InitFs.new pairImage (some 4096) = .ok pairScheme.fs ∧
    pairScheme.Lists 1 [[0x61], [0x62]] ∧ wordDirents.Lawful ∧
    (∀ name ∈ [[0x61], [0x62]], wordDirents.record name ≤ 24) ∧
    ∀ calls, pairScheme.listing wordDirents 3 1 24 (calls + 1) =
      some (some (.error (.errno .EINVAL))) := by
  refine ⟨rfl, pairScheme_lists, wordDirents_lawful, by decide, ?_⟩
  intro calls
  have first : pairScheme.pageTurn wordDirents 3 1 24 (0, []) =
      .done (some (.error (.errno .EINVAL))) := rfl
  rw [listing, loop, first]

end EosBase.Initfs
