import EosBase.Ramfs.Requests

/-!
# What a request does to each inode

A request may give an inode other entries, other contents or another owner, group or
mode, and it may make an inode.  Which inodes each request reaches in which way is
said here once.  Everything else about an inode stays as it was, its counts apart.
-/

namespace EosBase.Ramfs

open Redox Filesystem File

def File.listing (file : File) : List (Σ _ : Name, Nat) :=
  match file.data with
  | .file _ => []
  | .directory dentries => dentries.entries

def File.contents? (file : File) : Option (List UInt8) :=
  match file.data with
  | .file bytes => some bytes
  | .directory _ => none

def File.ownership (file : File) : Nat × Nat × Nat := (file.uid, file.gid, file.mode)

structure Reach where
  relists : Prop
  rewrites : Prop
  reowns : Prop
  makes : Prop

def Fate (reach : Reach) : Option File → Option File → Prop
  | none, none => True
  | none, some made => reach.makes ∧ (reach.relists ∨ made.listing = [])
  | some file, none => reach.relists ∨ file.listing = []
  | some file, some after =>
    (reach.relists ∨ after.listing = file.listing) ∧
    (reach.rewrites ∨ after.contents? = file.contents?) ∧
    (reach.reowns ∨ after.ownership = file.ownership)

theorem Fate.refl (reach : Reach) (found : Option File) : Fate reach found found := by
  cases found with
  | none => trivial
  | some file => exact ⟨Or.inr rfl, Or.inr rfl, Or.inr rfl⟩

variable {reach : Reach} {first second : Option File} {file after : File}

theorem Fate.trans (unmade : ¬ reach.makes) {third}
    (earlier : Fate reach first second) (later : Fate reach second third) :
    Fate reach first third := by
  cases second with
  | none =>
    cases third with
    | some made => exact absurd later.1 unmade
    | none => exact earlier
  | some middle =>
    cases first with
    | none => exact absurd earlier.1 unmade
    | some file =>
      obtain ⟨listed, held, owned⟩ := earlier
      cases third with
      | none =>
        rcases later with relists | bare
        · exact Or.inl relists
        · exact listed.imp_right fun same => same.symm.trans bare
      | some after =>
        obtain ⟨listedThen, heldThen, ownedThen⟩ := later
        refine ⟨?_, ?_, ?_⟩
        · exact listed.elim Or.inl fun same => listedThen.imp_right (·.trans same)
        · exact held.elim Or.inl fun same => heldThen.imp_right (·.trans same)
        · exact owned.elim Or.inl fun same => ownedThen.imp_right (·.trans same)

theorem Fate.same_listing (fate : Fate reach first second) (kept : ¬ reach.relists) :
    (second.map listing).getD [] = (first.map listing).getD [] := by
  cases first with
  | none =>
    cases second with
    | none => rfl
    | some made => exact fate.2.resolve_left kept
  | some file =>
    cases second with
    | none => exact (fate.resolve_left kept).symm
    | some after => exact fate.1.resolve_left kept

theorem Fate.counted (reach : Reach) (data : after.data = file.data)
    (owned : after.ownership = file.ownership) : Fate reach (some file) (some after) := by
  refine ⟨Or.inr ?_, Or.inr ?_, Or.inr owned⟩
  · rw [listing, listing, data]
  · rw [contents?, contents?, data]

theorem Fate.relisted {old new} (relists : reach.relists)
    (before : file.data = .directory old) (data : after.data = .directory new)
    (owned : after.ownership = file.ownership) : Fate reach (some file) (some after) := by
  refine ⟨Or.inl relists, Or.inr ?_, Or.inr owned⟩
  rw [contents?, contents?, before, data]

theorem Fate.rewritten {old new} (rewrites : reach.rewrites)
    (before : file.data = .file old) (data : after.data = .file new)
    (owned : after.ownership = file.ownership) : Fate reach (some file) (some after) := by
  refine ⟨Or.inr ?_, Or.inl rewrites, Or.inr owned⟩
  rw [listing, listing, before, data]

/-- The file system has changed no further than that, and new inodes have new numbers. -/
structure Fates (reach : Nat → Reach) (before after : Filesystem) : Prop where
  each : ∀ inode, Fate (reach inode) (before.files.get? inode) (after.files.get? inode)
  fresh : before.Fresh → after.Fresh

variable {this : Filesystem} {path : Name} {uid gid : Nat} {reach : Nat → Reach} {inode : Nat}

theorem Fates.refl (reach : Nat → Reach) (this : Filesystem) : Fates reach this this :=
  ⟨fun _ => Fate.refl _ _, id⟩

theorem Fates.trans {first second third} (unmade : ∀ inode, ¬ (reach inode).makes)
    (earlier : Fates reach first second) (later : Fates reach second third) :
    Fates reach first third :=
  ⟨fun inode => (earlier.each inode).trans (unmade inode) (later.each inode),
    fun fresh => later.fresh (earlier.fresh fresh)⟩

theorem fates_setFile (found : this.files.get? inode = some file)
    (fate : Fate (reach inode) (some file) (some after)) :
    Fates reach this (this.setFile inode after) := by
  refine ⟨fun other => ?_, fun fresh => fresh.setFile found⟩
  rw [get?_setFile]
  split
  next same =>
    subst same
    rw [found]
    exact fate
  next => exact Fate.refl _ _

theorem fates_erase (found : this.files.get? inode = some file)
    (bare : (reach inode).relists ∨ file.listing = []) :
    Fates reach this { this with files := this.files.erase inode } := by
  refine ⟨fun other => ?_, fun fresh => fresh.erase⟩
  rw [Table.get?_erase]
  split
  next same =>
    subst same
    rw [found]
    exact bare
  next => exact Fate.refl _ _

variable {after : Filesystem} {parentInode target : Nat} {parent : File} {dentries : Table Name Nat}
  {name : Name} {result : Result Unit} {directory : Bool}

section Removal

theorem fates_dropLinks {taken links info} (found : taken.files.get? target = some info)
    (bare : info.listing = [])
    (dropped : taken.dropLinks target info links = some (after, result)) :
    Fates reach taken after := by
  rw [dropLinks] at dropped
  split at dropped
  · cases dropped
  split at dropped
  · cases dropped
    exact fates_erase found (Or.inr bare)
  · cases dropped
    apply fates_setFile found
    exact Fate.counted _ rfl rfl

theorem fates_outcome {taken outcome} (unmade : ∀ inode, ¬ (reach inode).makes)
    (done : Outcome taken parentInode target directory outcome)
    (equal : outcome = some (after, result)) : Fates reach taken after := by
  cases done with
  | unfit error _ =>
    cases equal
    exact Fates.refl _ _
  | file info bytes _ found isFile =>
    apply fates_dropLinks found _ equal
    rw [listing, isFile]
  | directory info entries parent _ found isDirectory empty present =>
    split at equal
    · cases equal
    have counted : Fates reach taken
        (taken.setFile parentInode { parent with nlink := parent.nlink - 1 }) := by
      apply fates_setFile present
      exact Fate.counted _ rfl rfl
    obtain ⟨now, still, unchanged⟩ := still_directory found isDirectory present
    apply counted.trans unmade
    rw [removeInode, still] at equal
    simp only [unchanged] at equal
    apply fates_dropLinks still _ equal
    rw [listing, unchanged]
    exact empty

theorem fates_removeDentry
    (removed : this.removeDentry path uid gid directory = some (after, result))
    (unmade : ∀ inode, ¬ (reach inode).makes)
    (relists : ∀ parentInode parent dentries name target,
      this.Takes path uid gid parentInode parent dentries name target →
        (reach parentInode).relists) : Fates reach this after := by
  rcases this.removeDentry_cases directory with
    ⟨parentInode, parent, dentries, name, target, takes, steps⟩ | ⟨_, refused⟩
  · have taken : Fates reach this (this.takeOut parentInode parent dentries name) := by
      apply fates_setFile takes.found
      exact Fate.relisted (relists _ _ _ _ _ takes) takes.isDirectory rfl rfl
    apply taken.trans unmade
    exact fates_outcome unmade
      (removeTarget_outcome target directory (Table.get?_insert_self _ _ _))
      (steps.symm.trans removed)
  · rcases refused with ⟨_, panics⟩ | ⟨error, unchanged⟩
    · cases panics.symm.trans removed
    · cases unchanged.symm.trans removed
      exact Fates.refl _ _

end Removal

section Opening

variable {flags fcntlFlags : Nat}

theorem newInode_listing {parent inode}
    (made : newInode flags uid gid parent = .ok inode) : inode.listing = [] := by
  rcases (newInode_data made).2 with ⟨isFile, _⟩ | ⟨isDirectory, _⟩
  · rw [listing, isFile]
  · rw [listing, isDirectory]
    rfl

theorem fates_openInode {result} (fresh : this.Fresh)
    (opened : this.openInode path flags fcntlFlags uid gid = some (after, result))
    (makes : (reach (this.lastInodeNumber + 1)).makes)
    (rewrites : ∀ inode file data,
      this.Opens path (effectiveFlags flags fcntlFlags) uid gid inode file data →
        opensForWriting (effectiveFlags flags fcntlFlags) → (reach inode).rewrites)
    (relists : ∀ parentInode name inode,
      this.Creates path flags uid gid parentInode name inode → (reach parentInode).relists) :
    Fates reach this after := by
  have opening := openInode_opening this path flags fcntlFlags uid gid
  rw [opened] at opening
  have made : ∀ parentInode name inode, this.Creates path flags uid gid parentInode name inode →
        Fates reach this (this.withInode inode) := by
    intro parentInode name inode creates
    refine ⟨fun other => ?_, fun fresh => fresh.withInode inode⟩
    rw [withInode, Table.get?_insert]
    split
    next new =>
      subst new
      rw [fresh.next]
      exact ⟨makes, Or.inr (newInode_listing creates.made)⟩
    next => exact Fate.refl _ _
  cases opening with
  | refused error last later =>
    refine ⟨fun _ => Fate.refl _ _, fun fresh other late => ?_⟩
    exact fresh other (later.trans_lt late)
  | opened inode file data opens =>
    apply fates_setFile opens.found
    rcases truncated_cases opens.contents with same | ⟨writes, bytes, isFile, empty⟩
    · exact Fate.counted _ same rfl
    · exact Fate.rewritten (rewrites inode file data opens writes) isFile empty rfl
  | stray parentInode name inode parent bytes creates => exact made parentInode name inode creates
  | created parentInode name inode parent entries creates found isDirectory =>
    obtain ⟨_, present⟩ := fresh.parent creates.resolved found
    refine ⟨fun other => ?_, fun fresh => (fresh.withInode inode).setFile found⟩
    rw [get?_setFile]
    split
    next same =>
      subst same
      rw [present]
      exact Fate.relisted (relists _ name inode creates) isDirectory rfl rfl
    next => exact (made parentInode name inode creates).each other

end Opening

theorem fates_onFile {change}
    (fate : ∀ file changed, this.files.get? inode = some file → change file = .ok changed →
      Fate (reach inode) (some file) (some changed)) :
    Fates reach this (this.onFile inode change).1 := by
  rw [onFile]
  split
  · exact Fates.refl _ _
  next file found =>
  split
  · exact Fates.refl _ _
  next changed done => exact fates_setFile found (fate file changed found done)

theorem fates_closes (closes : Closes this inode after)
    (relists : ∀ info, this.files.get? inode = some info → info.nlink = 0 → info.listing ≠ [] →
      (reach inode).relists) : Fates reach this after := by
  cases closes with
  | absent => exact Fates.refl _ _
  | @dropped info found _ unused =>
    apply fates_erase found
    by_cases bare : info.listing = []
    · exact Or.inr bare
    · exact Or.inl (relists info found unused.1 bare)
  | counted found =>
    apply fates_setFile found
    exact Fate.counted _ rfl rfl

end EosBase.Ramfs
