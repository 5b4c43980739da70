import EosBase.Ramfs.Effects

/-!
# Counting links and handles

How many entries name an inode, and how that number moves when a file or directory is
changed, made or dropped.  `Settled` says what the counts of one inode have to do with
the entries and handles that there are; every operation is looked at through it, one
inode at a time.
-/

namespace EosBase.Ramfs

open Redox File Table Nat

def File.dentries? (file : File) : Option (Table Name Nat) :=
  match file.data with
  | .file _ => none
  | .directory dentries => some dentries

variable {file : File} {dentries : Table Name Nat}

theorem File.dentries?_file {bytes} (isFile : file.data = .file bytes) : file.dentries? = none := by
  rw [dentries?, isFile]

theorem File.dentries?_directory
    (isDirectory : file.data = .directory dentries) : file.dentries? = some dentries := by
  rw [dentries?, isDirectory]

theorem File.directory_of_dentries?
    (same : file.dentries? = some dentries) : file.data = .directory dentries := by
  rw [dentries?] at same
  split at same
  · cases same
  next isDirectory =>
  cases same
  exact isDirectory

def naming (dentries : Option (Table Name Nat)) (inode : Nat) : Nat :=
  match dentries with
  | none => 0
  | some dentries => dentries.count fun _ target => inode == target

variable {name : Name} {inode target : Nat} {made : File} {parentInode flags : Nat}
  {this : Filesystem} {path : Name} {uid gid : Nat} {changed : File} {other : Nat}

theorem naming_of_some
    (named : dentries.get? name = some inode) : 0 < naming (some dentries) inode := by
  rw [pos_iff_ne_zero, naming, Ne, count_eq_zero_iff]
  intro unnamed
  exact absurd (beq_self_eq_true inode) (Bool.eq_false_iff.mp (unnamed name inode named))

theorem naming_empty : naming (some .empty) inode = 0 := rfl

theorem naming_erase (inode : Nat) (named : dentries.get? name = some target) :
    naming (some (dentries.erase name)) inode + (if inode = target then 1 else 0) =
      naming (some dentries) inode := by
  have removed := dentries.count_erase (fun _ entry => inode == entry) named
  simpa only [naming, beq_iff_eq] using removed

theorem naming_insertLast (absent : dentries.get? name = none) :
    naming (some (dentries.insertLast name target)) inode =
      naming (some dentries) inode + if inode = target then 1 else 0 := by
  rw [naming, naming, Table.count, Table.entries_insertLast absent, List.countP_append,
    List.countP_singleton]
  simp only [beq_iff_eq]
  rfl

namespace Filesystem

def linksTo (this : Filesystem) (inode : Nat) : Nat :=
  this.files.sum fun _ file => naming file.dentries? inode

theorem linksTo_pos_iff : 0 < this.linksTo inode ↔
    ∃ parent directory dentries name, this.files.get? parent = some directory ∧
      directory.data = .directory dentries ∧ dentries.get? name = some inode := by
  rw [pos_iff_ne_zero, linksTo, Ne, sum_eq_zero_iff]
  constructor
  · intro named
    simp only [not_forall] at named
    obtain ⟨parent, directory, found, names⟩ := named
    cases data : directory.data with
    | file bytes =>
      rw [dentries?_file data] at names
      exact absurd rfl names
    | directory dentries =>
      rw [dentries?_directory data, naming, count_eq_zero_iff] at names
      simp only [not_forall] at names
      obtain ⟨name, target, entry, same⟩ := names
      rw [Bool.not_eq_false, beq_iff_eq] at same
      exact ⟨parent, directory, dentries, name, found, data, same.symm ▸ entry⟩
  · rintro ⟨parent, directory, dentries, name, found, data, entry⟩ unnamed
    have none := unnamed parent directory found
    rw [dentries?_directory data] at none
    exact absurd none (naming_of_some entry).ne'

theorem linksTo_setFile (changed : File) (other : Nat) (found : this.files.get? inode = some file) :
    (this.setFile inode changed).linksTo other + naming file.dentries? other =
      this.linksTo other + naming changed.dentries? other :=
  this.files.sum_insert_of_some found

theorem linksTo_setFile_same (found : this.files.get? inode = some file)
    (same : changed.dentries? = file.dentries?) (other : Nat) :
    (this.setFile inode changed).linksTo other = this.linksTo other := by
  have moved := linksTo_setFile changed other found
  rw [same] at moved
  exact add_right_cancel moved

theorem linksTo_withInode (absent : this.files.get? (this.lastInodeNumber + 1) = none) :
    (this.withInode made).linksTo other = this.linksTo other + naming made.dentries? other :=
  this.files.sum_insert absent

theorem linksTo_erase (other : Nat) (found : this.files.get? inode = some file) :
    linksTo { this with files := this.files.erase inode } other + naming file.dentries? other =
      this.linksTo other :=
  this.files.sum_erase _ found

/-- What the counts of an inode have to do with the entries that name it and the
handles on it.  No file or directory is kept for nothing.  The counts of the root leave
out so many of its handles. -/
def Settled (uncounted inode links handles : Nat) : Option File → Prop
  | none => inode ≠ ROOT_INODE ∧ links = 0 ∧ handles = 0
  | some file =>
    file.openHandles + (if inode = ROOT_INODE then uncounted else 0) = handles ∧
      match file.dentries? with
      | none => inode ≠ ROOT_INODE ∧ file.nlink = links ∧ (0 < links ∨ 0 < handles)
      | some _ =>
        if inode = ROOT_INODE then file.nlink = 1 else file.nlink = 2 ∧ 0 < links

variable {uncounted : Nat}

theorem Settled.root {links handles found}
    (settled : Settled uncounted ROOT_INODE links handles found) :
    ∃ root dentries, found = some root ∧ root.data = .directory dentries := by
  cases found with
  | none => exact absurd rfl settled.1
  | some root =>
    cases data : root.data with
    | directory dentries => exact ⟨root, dentries, rfl, data⟩
    | file bytes =>
      have rest := settled.2
      rw [dentries?_file data] at rest
      exact absurd rfl rest.1

structure Books (this : Filesystem) (uncounted : Nat) (links handles : Nat → Nat) : Prop where
  fresh : this.Fresh
  settled : ∀ inode, Settled uncounted inode (links inode) (handles inode) (this.files.get? inode)

variable {handles' handles links : Nat → Nat} {parent : File} {links' : Nat → Nat}

section Books

section

variable (books : this.Books uncounted links handles)

include books

theorem Books.settle {after : Filesystem} (fresh : after.Fresh)
    (found : ∀ other, other ≠ inode → after.files.get? other = this.files.get? other)
    (others : ∀ other, other ≠ inode → links' other = links other ∧ handles' other = handles other)
    (settled : Settled uncounted inode (links' inode) (handles' inode) (after.files.get? inode)) :
    after.Books uncounted links' handles' := by
  refine ⟨fresh, fun other => ?_⟩
  by_cases same : other = inode
  · exact same ▸ settled
  · obtain ⟨sameLinks, sameHandles⟩ := others other same
    rw [found other same, sameLinks, sameHandles]
    exact books.settled other

theorem Books.setFile (found : this.files.get? inode = some file)
    (others : ∀ other, other ≠ inode → links' other = links other ∧ handles' other = handles other)
    (settled : Settled uncounted inode (links' inode) (handles' inode) (some changed)) :
    (this.setFile inode changed).Books uncounted links' handles' := by
  apply books.settle (books.fresh.setFile found) _ others
  · rwa [get?_setFile, if_pos rfl]
  · intro other different
    rw [get?_setFile, if_neg different]

theorem Books.erase
    (others : ∀ other, other ≠ inode → links' other = links other ∧ handles' other = handles other)
    (settled : Settled uncounted inode (links' inode) (handles' inode) none) :
    Books { this with files := this.files.erase inode } uncounted links' handles' := by
  apply books.settle books.fresh.erase _ others
  · rwa [get?_erase_self]
  · intro other different
    exact (get?_erase _ _ _).trans (if_neg different)

theorem Books.withInode (others : ∀ other, other ≠ this.lastInodeNumber + 1 →
      links' other = links other ∧ handles' other = handles other)
    (settled : Settled uncounted (this.lastInodeNumber + 1) (links' (this.lastInodeNumber + 1))
      (handles' (this.lastInodeNumber + 1)) (some made)) :
    (this.withInode made).Books uncounted links' handles' := by
  apply books.settle (books.fresh.withInode made) _ others
  · rwa [Filesystem.withInode, get?_insert_self]
  · intro other different
    rw [Filesystem.withInode, get?_insert_of_ne _ different]

section

variable (found : this.files.get? inode = some file)

include found

theorem Books.touch (nlink : changed.nlink = file.nlink)
    (openHandles : changed.openHandles = file.openHandles)
    (kind : changed.dentries?.isSome = file.dentries?.isSome) :
    (this.setFile inode changed).Books uncounted links handles := by
  apply books.setFile found fun _ _ => ⟨rfl, rfl⟩
  have settled := books.settled inode
  rw [found, Settled] at settled
  rw [Settled, openHandles, nlink]
  refine ⟨settled.1, ?_⟩
  have rest := settled.2
  cases old : file.dentries? <;> cases new : changed.dentries? <;> rw [old, new] at kind
  · rwa [old] at rest
  · cases kind
  · cases kind
  · rwa [old] at rest

theorem Books.dropLinks {bytes} (isFile : file.data = .file bytes)
    (others : ∀ other, other ≠ inode → links' other = links other)
    (one : links' inode + 1 = links inode) :
    ∃ after, this.dropLinks inode file 1 = some (after, .ok ()) ∧
      after.Books uncounted links' handles ∧ ∀ other, after.linksTo other = this.linksTo other := by
  have dentries := dentries?_file isFile
  have settled := books.settled inode
  rw [found, Settled, dentries] at settled
  obtain ⟨opened, regular, counted, used⟩ := settled
  rw [if_neg regular, add_zero] at opened
  rw [Filesystem.dropLinks, if_neg (by omega)]
  split
  next unused =>
    refine ⟨_, rfl, books.erase (fun other different => ⟨others other different, rfl⟩)
      ⟨regular, by omega, by omega⟩, fun other => ?_⟩
    have moved := linksTo_erase other found
    rwa [dentries, naming, add_zero] at moved
  next used =>
  refine ⟨_, rfl, books.setFile found (fun other different => ⟨others other different, rfl⟩) ?_,
    linksTo_setFile_same found rfl⟩
  change file.openHandles + _ = _ ∧ match file.dentries? with | none => _ | some _ => _
  rw [dentries, if_neg regular]
  have lowered : file.nlink - 1 = links' inode := by omega
  have kept : 0 < links' inode ∨ 0 < handles inode := by omega
  exact ⟨opened, regular, lowered, kept⟩

/-- A handle on a file or directory is closed; the file goes if it has no name any
more.  The counts allow that unless all counted handles on the root are closed. -/
theorem Books.close (counted : file.openHandles ≠ 0)
    (others : ∀ other, other ≠ inode → handles' other = handles other)
    (one : handles' inode + 1 = handles inode) :
    if file.nlink = 0 ∧ file.openHandles - 1 = 0 then
      Books { this with files := this.files.erase inode } uncounted links handles' ∧
        file.dentries? = none
    else
      (this.setFile inode { file with openHandles := file.openHandles - 1 }).Books uncounted
        links handles' := by
  have settled := books.settled inode
  rw [found, Settled] at settled
  obtain ⟨opened, rest⟩ := settled
  split
  next unused =>
    cases dentries : file.dentries? with
    | some _ =>
      rw [dentries] at rest
      dsimp only at rest
      split at rest <;> omega
    | none =>
      rw [dentries] at rest
      obtain ⟨regular, links, _⟩ := rest
      rw [if_neg regular, add_zero] at opened
      refine ⟨books.erase (fun other different => ⟨rfl, others other different⟩) ?_, rfl⟩
      exact ⟨regular, by omega, by omega⟩
  next used =>
  apply books.setFile found fun other different => ⟨rfl, others other different⟩
  have lowered : file.openHandles - 1 + (if inode = ROOT_INODE then uncounted else 0) =
      handles' inode := by omega
  refine ⟨lowered, ?_⟩
  change match file.dentries? with | none => _ | some _ => _
  cases dentries : file.dentries? with
  | some _ => rwa [dentries] at rest
  | none =>
    rw [dentries] at rest
    obtain ⟨regular, links, _⟩ := rest
    refine ⟨regular, links, ?_⟩
    omega

theorem Books.open {data} (same : dentries? { file with data := data } = file.dentries?)
    (counted : ∀ other, handles' other = handles other + if other = inode then 1 else 0) :
    (this.setFile inode { file with data := data, openHandles := file.openHandles + 1 }).Books
      uncounted links handles' := by
  have settled := books.settled inode
  rw [found, Settled] at settled
  obtain ⟨opened, rest⟩ := settled
  have more := counted inode
  rw [if_pos rfl] at more
  apply books.setFile found
  · intro other different
    rw [counted, if_neg different]
    exact ⟨rfl, rfl⟩
  · have raised : file.openHandles + 1 + (if inode = ROOT_INODE then uncounted else 0) =
        handles' inode := by omega
    refine ⟨raised, ?_⟩
    change match dentries? { file with data := data } with | none => _ | some _ => _
    rw [same]
    cases dentries : file.dentries? with
    | some _ => rwa [dentries] at rest
    | none =>
      rw [dentries] at rest
      exact ⟨rest.1, rest.2.1, Or.inr (by omega)⟩

end

end

end Books

section Names

theorem Books.present (books : this.Books uncounted links handles) (linked : 0 < links inode) :
    ∃ file, this.files.get? inode = some file := by
  cases found : this.files.get? inode with
  | some file => exact ⟨file, rfl⟩
  | none =>
    have settled := books.settled inode
    rw [found] at settled
    exact absurd settled.2.1 linked.ne'

theorem new_name_absent {error} (present : ∀ part target, dentries.get? part = some target →
      ∃ file, this.files.get? target = some file)
    (resolved : this.resolveExceptLast path uid gid = some (.ok (parentInode, some name)))
    (found : this.files.get? parentInode = some parent)
    (isDirectory : parent.data = .directory dentries)
    (missing : this.resolve path 0 0 = some (.error error)) : dentries.get? name = none := by
  obtain ⟨answer, generic, mapped⟩ := Option.map_eq_some_iff.mp resolved
  obtain ⟨inode, same, pair⟩ := ok_of_map mapped
  obtain ⟨rfl, last⟩ := Prod.mk.inj pair
  rw [same, resolveGeneric_eq_walk] at generic
  rw [resolve, ← List.dropLast_append_getLast? _ last, resolveGeneric_eq_walk] at missing
  cases start : this.files.get? ROOT_INODE with
  | none =>
    rw [start] at generic
    cases generic
  | some root =>
    rw [start] at generic missing
    obtain ⟨final, arrived, continued⟩ := walk_ok generic start
    cases found.symm.trans arrived
    dsimp only at missing
    rw [continued, walk.eq_def] at missing
    simp only [isDirectory, currentPerm_root] at missing
    cases named : dentries.get? name with
    | none => rfl
    | some target =>
      obtain ⟨file, there⟩ := present name target named
      have entered : this.enter dentries name = .ok (target, file) := by
        rw [enter, named, okOr]
        change (okOr Errno.EIO (this.files.get? target)).bind _ = _
        rw [there]
        rfl
      rw [if_neg (by decide), entered] at missing
      split at missing <;> cases missing

section

variable (new : newInode flags uid gid parentInode = .ok made)

include new

theorem naming_newInode : naming made.dentries? other = 0 := by
  rcases (newInode_data new).2 with ⟨data, _⟩ | ⟨data, _⟩
  · rw [dentries?_file data, naming]
  · rw [dentries?_directory data, naming_empty]

theorem settled_newInode
    (other : inode ≠ ROOT_INODE) : Settled uncounted inode 1 1 (some made) := by
  obtain ⟨openHandles, kind⟩ := newInode_data new
  refine ⟨by rw [if_neg other, openHandles], ?_⟩
  rcases kind with ⟨data, nlink⟩ | ⟨data, nlink⟩
  · rw [dentries?_file data]
    exact ⟨other, nlink, Or.inl one_pos⟩
  · rw [dentries?_directory data]
    rw [if_neg other]
    exact ⟨nlink, one_pos⟩

end

theorem Books.create {entries} (books : this.Books uncounted this.linksTo handles)
    (creates : this.Creates path flags uid gid parentInode name made)
    (found : (this.withInode made).files.get? parentInode = some parent)
    (isDirectory : parent.data = .directory entries) (counted : ∀ other, handles' other =
      handles other + if other = this.lastInodeNumber + 1 then 1 else 0)
    (same : changed = { parent with
      data := .directory (entries.insertLast name (this.lastInodeNumber + 1)) }) :
    ((this.withInode made).setFile parentInode changed).Books uncounted
      ((this.withInode made).setFile parentInode changed).linksTo handles' := by
  obtain ⟨_, old⟩ := books.fresh.parent creates.resolved found
  have changedEntries : changed.dentries? =
      some (entries.insertLast name (this.lastInodeNumber + 1)) := by
    rw [same]
    rfl
  obtain ⟨error, missing⟩ := creates.absent
  have present : ∀ part target, entries.get? part = some target →
      ∃ file, this.files.get? target = some file := by
    intro part target named
    apply books.present
    exact linksTo_pos_iff.mpr ⟨parentInode, parent, entries, part, old, isDirectory, named⟩
  have absent := new_name_absent present creates.resolved old isDirectory missing
  -- one entry more, which names the new inode
  have linked : ∀ other, ((this.withInode made).setFile parentInode changed).linksTo other =
      this.linksTo other + if other = this.lastInodeNumber + 1 then 1 else 0 := by
    intro other
    have moved := linksTo_setFile changed other found
    rw [linksTo_withInode books.fresh.next, naming_newInode creates.made,
      dentries?_directory isDirectory, changedEntries, naming_insertLast absent] at moved
    omega
  have unused := books.settled (this.lastInodeNumber + 1)
  rw [books.fresh.next] at unused
  obtain ⟨notRoot, noLinks, noHandles⟩ := unused
  apply Books.touch _ found
  · rw [same]
  · rw [same]
  · rw [changedEntries, dentries?_directory isDirectory]
    rfl
  · apply books.withInode
    · intro other older
      rw [linked, counted, if_neg older]
      exact ⟨rfl, rfl⟩
    · rw [linked, counted, if_pos rfl, noLinks, noHandles]
      exact settled_newInode creates.made notRoot

end Names

section Removal

def entryOf (this : Filesystem) (path : Name) (uid gid : Nat) : Option File :=
  match this.resolveExceptLast path uid gid with
  | some (.ok (parentInode, some name)) =>
    (this.files.get? parentInode).bind fun parent =>
      parent.dentries?.bind fun dentries => (dentries.get? name).bind this.files.get?
  | _ => none

theorem Takes.entryOf_eq (takes : this.Takes path uid gid parentInode parent dentries name target) :
    this.entryOf path uid gid = this.files.get? target := by
  rw [entryOf, takes.resolved]
  simp only [takes.found, dentries?_directory takes.isDirectory, takes.named, Option.bind_some]

section

variable (books : this.Books uncounted this.linksTo handles)

include books

theorem Books.takeOut (takes : this.Takes path uid gid parentInode parent dentries name target) :
    (this.takeOut parentInode parent dentries name).Books uncounted this.linksTo handles ∧
      ∀ other, (this.takeOut parentInode parent dentries name).linksTo other +
        (if other = target then 1 else 0) = this.linksTo other := by
  constructor
  · refine books.touch takes.found ?_ ?_ ?_
    · rfl
    · rfl
    · rw [dentries?_directory takes.isDirectory]
      rfl
  · intro other
    have moved := linksTo_setFile
      { parent with data := .directory (dentries.erase name) } other takes.found
    have fewer := naming_erase other takes.named
    rw [dentries?_directory takes.isDirectory] at moved
    change (this.takeOut parentInode parent dentries name).linksTo other + _ =
      _ + naming (some (dentries.erase name)) other at moved
    omega

theorem Books.removeDentry {directory} (regular : ∀ file, this.entryOf path uid gid = some file →
      directory = false ∧ file.dentries? = none) :
    (this.resolveExceptLast path uid gid = none ∧ this.removeDentry path uid gid directory = none) ∨
      ∃ after result, this.removeDentry path uid gid directory = some (after, result) ∧
        after.Books uncounted after.linksTo handles := by
  rcases removeDentry_cases this directory with
    ⟨parentInode, parent, dentries, name, target, takes, done⟩ | ⟨_, panics | ⟨error, refused⟩⟩
  · obtain ⟨info, found⟩ := books.present (linksTo_pos_iff.mpr
      ⟨parentInode, parent, dentries, name, takes.found, takes.isDirectory, takes.named⟩)
    obtain ⟨rfl, isRegular⟩ := regular info (takes.entryOf_eq.trans found)
    obtain ⟨taken, fewer⟩ := books.takeOut takes
    cases data : info.data with
    | directory entries =>
      rw [dentries?_directory data] at isRegular
      cases isRegular
    | file bytes =>
      have different : target ≠ parentInode := by
        rintro rfl
        cases found.symm.trans takes.found
        cases data.symm.trans takes.isDirectory
      have still : (this.takeOut parentInode parent dentries name).files.get? target =
          some info := by
        rw [Filesystem.takeOut, get?_setFile, if_neg different, found]
      have one := fewer target
      rw [if_pos rfl] at one
      obtain ⟨after, dropped, kept, same⟩ := taken.dropLinks still data (fun other different => by
          have equal := fewer other
          rwa [if_neg different, add_zero] at equal) one
      refine Or.inr ⟨after, .ok (), ?_, ?_⟩
      · rw [done, ← dropped]
        simp only [removeTarget, removeInode, still, Option.map_some, data, Bool.false_eq_true,
          if_false]
      · rwa [funext same]
  · exact Or.inl panics
  · exact Or.inr ⟨this, .error error, refused, books⟩

end

end Removal

end Filesystem

end EosBase.Ramfs
