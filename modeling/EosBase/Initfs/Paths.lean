import EosBase.Initfs.Layout
import EosBase.Initfs.Safety
import Mathlib.Data.List.Flatten

/-!
# Initfs: paths

The loop of `openat` consumes the components of a path from the front, and `..`
takes one from the back: not the name before it, which has been looked up
already, but the last one that is left.  A path is resolved like its normal form
in every image just if the names that are visited are those of the normal form:
for any others there is an image whose directories tell them apart.
-/

namespace EosBase.Initfs

open Redox InitFsScheme List Nat

/-- What a component does to the names before it: `..` cancels the last. -/
def keepComponent (names : List Name) (component : List UInt8) : List Name :=
  if component = dot then names
  else if component = dotDot then names.dropLast
  else names ++ [component]

def normalized (components : List Name) : List Name :=
  components.foldl keepComponent []

/-- The names that `lookup` comes to: `..` cancels the last component of the path. -/
def visited : List Name → List Name
  | [] => []
  | component :: rest =>
    if component = dot then visited rest
    else if component = dotDot then visited rest.dropLast
    else component :: visited rest
  termination_by components => components.length

theorem lookup_visited {fs : InitFs} {rounds : Nat} {steps more : Nat}
    {components : List Name} {current : Nat} (enough : components.length < steps)
    (names : (visited components).length < more) :
    lookup fs rounds steps components current =
      lookup fs rounds more (visited components) current := by
  induction steps generalizing components more current with
  | zero => exact absurd enough (not_lt_zero _)
  | succ steps ih =>
    obtain ⟨more, rfl⟩ := exists_eq_succ_of_ne_zero (ne_zero_of_lt names)
    cases components with
    | nil => rw [visited, lookup, lookup]
    | cons component rest =>
      have shorter : rest.length < steps := lt_of_succ_lt_succ enough
      rw [visited] at names ⊢
      rw [lookup]
      split_ifs at names ⊢ with isDot isDotDot
      · exact ih shorter names
      · exact ih (by rw [length_dropLast]; omega) names
      · rw [lookup, if_neg isDot, if_neg isDotDot]
        split
        · rfl
        split
        · rfl
        · rfl
        · exact ih shorter (lt_of_succ_lt_succ names)

theorem normalized_eq_visited {components : List Name} (plain : dotDot ∉ components) :
    normalized components = visited components := by
  -- The names kept so far stand in front.
  suffices every : ∀ names, components.foldl keepComponent names = names ++ visited components from
    every []
  induction components with
  | nil => simp [visited]
  | cons component rest ih =>
    obtain ⟨other, restPlain⟩ := not_or.mp (mt mem_cons.mpr plain)
    intro names
    rw [foldl_cons, ih restPlain, visited, keepComponent, if_neg (Ne.symm other),
      if_neg (Ne.symm other)]
    split
    · rfl
    · rw [append_assoc, singleton_append]

variable {names : List Name}

theorem mem_normalized {components : List Name} : ∀ name ∈ normalized components,
    name ∈ components ∧ name ≠ dot ∧ name ≠ dotDot := by
  suffices every : ∀ kept : List Name, ∀ name ∈ components.foldl keepComponent kept,
      name ∈ kept ∨ name ∈ components ∧ name ≠ dot ∧ name ≠ dotDot from
    fun name member => (every [] name member).resolve_left not_mem_nil
  induction components with
  | nil => exact fun kept name member => .inl member
  | cons component rest ih =>
    intro kept name member
    have later := ih (keepComponent kept component) name member
    grind [keepComponent, dropLast_sublist, Sublist.subset]

theorem visited_normalized (components : List Name) :
    visited (normalized components) = normalized components := by
  have plain := @mem_normalized components
  generalize normalized components = names at plain
  induction names with
  | nil => rw [visited]
  | cons name rest ih =>
    obtain ⟨⟨-, notDot, notDotDot⟩, others⟩ := forall_mem_cons.mp plain
    rw [visited, if_neg notDot, if_neg notDotDot, ih others]

def InitFsScheme.follow (scheme : InitFsScheme) (rounds : Nat) (names : List Name) :
    Option (Served Nat) :=
  match orEio scheme.fs.rootInode with
  | .error fault => some (.error fault)
  | .ok root => lookup scheme.fs rounds (names.length + 1) names root

theorem InitFsScheme.follow_visited {scheme : InitFsScheme} {rounds : Nat}
    {components : List Name} :
    scheme.follow rounds components = scheme.follow rounds (visited components) := by
  unfold follow
  cases orEio scheme.fs.rootInode with
  | error fault => rfl
  | ok root => exact lookup_visited (lt_succ_self _) (lt_succ_self _)

theorem InitFsScheme.resolve_eq_follow {scheme : InitFsScheme} {rounds : Nat} {path : List UInt8} :
    scheme.resolve rounds path = scheme.follow rounds (components path) :=
  rfl

/-- Where the tables of so many directories start, behind their inodes. -/
def chainTables (count : Nat) : Nat := Header.size + count * InodeHeader.size

def chainInode (count place : Nat) : InodeHeader :=
  ⟨InodeType.dir.toNat, DirEntry.size, chainTables count + place * DirEntry.size⟩

def chainInodes (count : Nat) : List InodeHeader := (range count).map (chainInode count)

def chainEntry (names : List Name) (place : Nat) (name : Name) : DirEntry :=
  ⟨place + 1, name.length,
    chainTables names.length + names.length * DirEntry.size + (names.take place).flatten.length⟩

def chainHeader (count : Nat) : Header := ⟨magic, Header.size, 0, pageSize, 0, count, 0⟩

/-- An image with directories below each other, each with one entry: the next directory under
the next name. -/
def chain (names : List Name) : List UInt8 :=
  (chainHeader names.length).encode ++ ((chainInodes names.length).flatMap InodeHeader.encode ++
    ((names.mapIdx (chainEntry names)).flatMap DirEntry.encode ++ names.flatten))

def chainDir (names : List Name) (place : Nat) : InodeStruct :=
  ⟨⟨chain names⟩, place, chainInode names.length place⟩

/-- An image can hold a directory for each of these names. -/
abbrev Holdable (names : List Name) : Prop := names.length + names.flatten.length < 2 ^ 16

section Chain

variable {place : Nat} {name : Name}

theorem length_chainInodes {count} :
    ((chainInodes count).flatMap InodeHeader.encode).length = count * InodeHeader.size := by
  rw [length_flatMap_sized InodeHeader.length_encode, chainInodes, length_map, length_range]

theorem length_chainEntries : ((names.mapIdx (chainEntry names)).flatMap DirEntry.encode).length =
    names.length * DirEntry.size := by
  rw [length_flatMap_sized DirEntry.length_encode, length_mapIdx]

theorem split_flatten (named : names[place]? = some name) : names.flatten =
    (names.take place).flatten ++ (name ++ (names.drop (place + 1)).flatten) := by
  simpa only [flatMap_id, id] using @split_flatMap _ id _ _ _ named

variable (short : Holdable names)

include short

theorem chainHeader_fits : (chainHeader names.length).Fits := by
  refine ⟨rfl, ?_, ?_, ?_, ?_, show names.length < 2 ^ 16 by omega, ?_⟩ <;>
    simp [chainHeader, Header.size, pageSize]

theorem chain_stored :
    Stored (chain names) (chainHeader names.length) (chainInodes names.length) := by
  have header := Header.length_encode (chainHeader_fits short)
  refine ⟨chainHeader_fits short, rfl, rfl, by simp [chainInodes, chainHeader], ?_, ?_, le_rfl, ?_,
    ?_⟩
  · simp only [chain, length_append, header, length_chainInodes, length_chainEntries, Header.size,
      InodeHeader.size, DirEntry.size]
    omega
  · exact slice?_append (nil_append _).symm rfl (by simpa using header)
  · exact slice?_append rfl header (congrArg _ (length_flatMap_sized InodeHeader.length_encode))
  · simp only [chainInodes, mem_map, mem_range]
    rintro _ ⟨place, inside, rfl⟩
    refine ⟨by simp [chainInode, InodeType.toNat], by simp [chainInode, DirEntry.size], ?_⟩
    simp only [chainInode, chainTables, Header.size, InodeHeader.size, DirEntry.size]
    omega

variable (named : names[place]? = some name)

include named

theorem directory_chain : directory ⟨chain names⟩ place = .ok (chainDir names place) := by
  have inside := (List.getElem?_eq_some_iff.mp named).1
  have listed : (chainInodes names.length)[place]? = some (chainInode names.length place) := by
    rw [chainInodes, getElem?_map, getElem?_range inside, Option.map_some]
  unfold directory getInode
  rw [(chain_stored short).getInode_read listed]
  rfl

theorem entries_chain : (chainDir names place).entries = .ok [chainEntry names place name] := by
  have inside := (List.getElem?_eq_some_iff.mp named).1
  have listed : (names.mapIdx (chainEntry names))[place]? = some (chainEntry names place name) := by
    rw [getElem?_mapIdx, named, Option.map_some]
  have front : (((names.mapIdx (chainEntry names)).take place).flatMap DirEntry.encode).length =
      place * DirEntry.size := by
    rw [length_flatMap_sized DirEntry.length_encode, length_take, length_mapIdx,
      min_eq_left inside.le]
  have cut := @slice?_append (chain names) _ _
    ((chainHeader names.length).encode ++ ((chainInodes names.length).flatMap _ ++ _)) _ _
    (by rw [chain, split_flatMap listed]; simp only [append_assoc]; rfl)
    (by rw [length_append, length_append, Header.length_encode (chainHeader_fits short),
          length_chainInodes, front, ← add_assoc]) rfl
  have size := congrArg length (split_flatten named)
  rw [length_append, length_append] at size
  have fits : (chainEntry names place name).Fits := by
    refine ⟨?_, ?_, ?_⟩ <;>
      simp only [chainEntry, chainTables, Header.size, InodeHeader.size, DirEntry.size] <;> omega
  rw [DirEntry.length_encode] at cut
  have data : (chainDir names place).data = .ok (chainEntry names place name).encode :=
    congrArg orInvalid cut
  rw [InodeStruct.entries, data]
  exact congrArg Except.ok (records_flatMap DirEntry.length_encode (by decide)
    (forall_mem_singleton.mpr (DirEntry.decode_encode fits)))

theorem name_chain : Entry.name ⟨⟨chain names⟩, chainEntry names place name⟩ = .ok name := by
  have cut := @slice?_append (chain names) _ _
    ((chainHeader names.length).encode ++ ((chainInodes names.length).flatMap _ ++
      ((names.mapIdx (chainEntry names)).flatMap DirEntry.encode ++ _))) _ _
    (by rw [chain, split_flatten named]; simp only [append_assoc]; rfl)
    (by rw [length_append, length_append, length_append,
      Header.length_encode (chainHeader_fits short), length_chainInodes, length_chainEntries,
      ← add_assoc, ← add_assoc]) rfl
  exact congrArg orInvalid cut

theorem find_chain (component : Name) :
    loop (findTurn component) 2 ⟨chainDir names place, 0⟩ =
      some (if name = component then .ok (place + 1) else .error (.errno .ENOENT)) := by
  have read := entries_chain short named
  have text : Entry.name ⟨(chainDir names place).initfs, chainEntry names place name⟩ = .ok name :=
    name_chain short named
  have inode : (chainEntry names place name).inode = place + 1 := rfl
  split_ifs with same
  · subst same
    simp [loop, findTurn, Iter.next, InodeStruct.getEntry, read, text, Except.map, orEio, inode]
  · simp [loop, findTurn, Iter.next, InodeStruct.getEntry, read, text, Except.map, orEio, same]

end Chain

section

variable (short : Holdable (names ++ [[]]))

include short

/-- The entry of the last directory has no name, and no component leads on from there. -/
theorem lookup_chain {steps place : Nat} {components : List Name} (inside : place ≤ names.length)
    (named : [] ∉ components) (enough : components.length < steps) :
    lookup ⟨chain (names ++ [[]])⟩ 2 steps components place = some (.ok names.length) ↔
      visited components = names.drop place := by
  induction steps generalizing components place with
  | zero => exact absurd enough (not_lt_zero _)
  | succ steps ih =>
    cases components with
    | nil =>
      rw [lookup, visited, Option.some.injEq, Except.ok.injEq, @eq_comm _ [], drop_eq_nil_iff]
      omega
    | cons component rest =>
      have shorter : rest.length < steps := lt_of_succ_lt_succ enough
      obtain ⟨nonempty, others⟩ := not_or.mp (mt mem_cons.mpr named)
      rw [visited, lookup]
      split_ifs with isDot isDotDot
      · exact ih inside others shorter
      · refine ih inside (fun member => others (dropLast_sublist _ |>.subset member)) ?_
        rw [length_dropLast]
        omega
      rcases inside.lt_or_eq with below | rfl
      · have found : (names ++ [[]])[place]? = some names[place] := by
          rw [getElem?_append_left below, List.getElem?_eq_getElem below]
        rw [directory_chain short found, drop_eq_getElem_cons below]
        simp only [find_chain short found, cons.injEq]
        split_ifs with same
        · simpa [same] using ih below others shorter
        · simp [Ne.symm same]
      · have found : (names ++ [[]])[names.length]? = some [] := by simp
        rw [directory_chain short found]
        simp [find_chain short found, nonempty]

theorem follow_chain {components : List Name} (named : [] ∉ components) :
    InitFsScheme.follow ⟨.empty, 0, ⟨chain (names ++ [[]])⟩⟩ 2 components =
      some (.ok names.length) ↔ visited components = names := by
  have root : InitFs.rootInode ⟨chain (names ++ [[]])⟩ = .ok 0 := by
    rw [InitFs.rootInode, (chain_stored short).header_read]
    rfl
  unfold follow
  rw [root]
  exact lookup_chain short (zero_le _) named (lt_succ_self _)

end

/-- A path is resolved like its normal form in every image. -/
def Normalizes (path : List UInt8) : Prop :=
  ∀ scheme : InitFsScheme, InitFs.new scheme.fs.base (some pageSize) = .ok scheme.fs →
    ∀ rounds inode, scheme.resolve rounds path = some (.ok inode) ↔
      scheme.follow rounds (normalized (components path)) = some (.ok inode)

end EosBase.Initfs
