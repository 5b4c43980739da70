import EosBase.Ramfs.Access
import EosBase.Ramfs.Links

/-!
# Link and handle accounts

`Accounts` is what the two counts of an inode are for: the links are the entries that
name it, the handles are those that are open on it, and an inode is kept as long as
there is one of either.  The scheme does not keep to that from the first root handle
on.  `Ledger` is what it does keep, as long as only files are removed and nothing is
made below a file.
-/

namespace EosBase.Ramfs

open Redox Filesystem File Scheme List Nat

def Scheme.handlesOn (this : Scheme) (inode : Nat) : Nat :=
  this.handles.count fun handle => inode == handle.asInode

def Filesystem.subdirectories (this : Filesystem) (dentries : Table Name Nat) : Nat :=
  dentries.count fun _ target => ((this.files.get? target).bind dentries?).isSome

def Filesystem.directoryOf (this : Filesystem) (path : Name) (uid gid : Nat) : Option File :=
  match this.resolveExceptLast path uid gid with
  | some (.ok (inode, _)) => this.files.get? inode
  | _ => none

/-- The entries and links of the files, and which inodes are there. -/
structure Kept (this : Scheme) : Prop where
  entries : ∀ inode directory dentries name target,
    this.filesystem.files.get? inode = some directory → directory.data = .directory dentries →
    dentries.get? name = some target → ∃ file, this.filesystem.files.get? target = some file
  files : ∀ inode file bytes, this.filesystem.files.get? inode = some file →
    file.data = .file bytes → file.nlink = this.filesystem.linksTo inode
  kept : ∀ inode, inode ≠ ROOT_INODE →
    ((∃ file, this.filesystem.files.get? inode = some file) ↔
      0 < this.filesystem.linksTo inode ∨ 0 < this.handlesOn inode)
  used : ∀ inode file, inode ≠ ROOT_INODE → this.filesystem.files.get? inode = some file →
    0 < file.nlink ∨ 0 < file.openHandles

/-- A directory has a link from its own entry `.` and one from its name, which the root
needs no entry for.  The root starts with one link less. -/
def ownLinks (this : Filesystem) (inode : Nat) : Nat :=
  (if inode = ROOT_INODE ∨ 0 < this.linksTo inode then 1 else 0) + 1 -
    if inode = ROOT_INODE then 1 else 0

/-- The counts are right, and none can fall below zero. -/
structure Accounts (this : Scheme) : Prop extends Kept this where
  directories : ∀ inode directory dentries, this.filesystem.files.get? inode = some directory →
    directory.data = .directory dentries →
    directory.nlink = ownLinks this.filesystem inode + this.filesystem.subdirectories dentries
  handles : ∀ inode file, this.filesystem.files.get? inode = some file →
    file.openHandles = this.handlesOn inode
  closes : ∀ fd, this.onClose fd ≠ none
  removes : ∀ path uid gid directory, this.filesystem.removeDentry path uid gid directory = none →
    this.filesystem.resolveExceptLast path uid gid = none

/-- Nothing is made below a file, and nothing but files is removed, as files. -/
def Orderly (this : Scheme) (event : Event) : Prop :=
  match event.request with
  | .openat _ path flags _ => flags &&& O_CREAT ≠ 0 →
      ∀ directory ∈ this.filesystem.directoryOf path event.ctx.uid event.ctx.gid,
        directory.dentries?.isSome
  | .unlinkat _ path flags =>
    ∀ file ∈ this.filesystem.entryOf path event.ctx.uid event.ctx.gid,
      (flags &&& AT_REMOVEDIR == AT_REMOVEDIR) = false ∧ file.dentries? = none
  | .removeDentry path directory =>
    ∀ file ∈ this.filesystem.entryOf path event.ctx.uid event.ctx.gid,
      directory = false ∧ file.dentries? = none
  | _ => True

instance (this : Scheme) (event : Event) : Decidable (Orderly this event) := by
  unfold Orderly
  split <;> infer_instance

/-- What is right as long as requests are orderly.  Directories do not count their
subdirectories.  The root has so many handles more than it counts, and only closing one
of its handles when the count is zero goes wrong. -/
structure Ledger (uncounted : Nat) (this : Scheme) : Prop extends Kept this where
  directories : ∀ inode directory dentries, this.filesystem.files.get? inode = some directory →
    directory.data = .directory dentries → directory.nlink = ownLinks this.filesystem inode
  handles : ∀ inode file, this.filesystem.files.get? inode = some file →
    file.openHandles + (if inode = ROOT_INODE then uncounted else 0) = this.handlesOn inode
  closes : ∀ fd, this.onClose fd = none ↔ this.handles.get? fd = some (.inode ROOT_INODE) ∧
    ∃ root, this.filesystem.files.get? ROOT_INODE = some root ∧ root.openHandles = 0
  removes : ∀ path directory ctx, Orderly this ⟨.removeDentry path directory, ctx⟩ →
    this.filesystem.removeDentry path ctx.uid ctx.gid directory = none →
    this.filesystem.resolveExceptLast path ctx.uid ctx.gid = none

/-- The books of the file system are right about the handles that there are. -/
abbrev Scheme.Balanced (this : Scheme) (uncounted : Nat) : Prop :=
  this.filesystem.Books uncounted this.filesystem.linksTo this.handlesOn

variable {this after : Scheme} {event : Event} {uncounted inode fd : Nat} {file : File}
  {flags : Nat} {ctx : CallerCtx} {filesystem : Filesystem} {request : Request} {path : Name}
  {directory : Bool} {state : Scheme}

section Handles

theorem handlesOn_insert (filesystem : Filesystem) (inode other : Nat) :
    handlesOn ⟨filesystem, (this.handles.insert (.inode inode)).1⟩ other =
      this.handlesOn other + if other = inode then 1 else 0 := by
  rw [handlesOn, HandleMap.count_insert]
  simp only [Handle.asInode, beq_iff_eq]
  rfl

theorem handlesOn_remove (filesystem : Filesystem) (other : Nat)
    (found : this.handles.get? fd = some (.inode inode)) :
    handlesOn ⟨filesystem, (this.handles.remove fd).1⟩ other +
      (if other = inode then 1 else 0) = this.handlesOn other := by
  have removed := HandleMap.count_remove (fun handle => other == handle.asInode) found
  simp only [Handle.asInode, beq_iff_eq] at removed
  exact removed

theorem handlesOn_pos_iff :
    0 < this.handlesOn inode ↔ ∃ fd, this.handles.get? fd = some (.inode inode) := by
  rw [pos_iff_ne_zero, handlesOn, Ne, HandleMap.count_eq_zero_iff]
  constructor
  · intro some
    simp only [not_forall] at some
    obtain ⟨fd, ⟨number⟩, found, same⟩ := some
    rw [Bool.not_eq_false, beq_iff_eq] at same
    exact ⟨fd, same ▸ found⟩
  · rintro ⟨fd, found⟩ none
    exact absurd (beq_self_eq_true inode) (Bool.eq_false_iff.mp (none fd _ found))

end Handles

section Steps

theorem Changes.counts {change changed} (changes : Changes this request inode change)
    (done : change file = .ok changed) : changed.nlink = file.nlink ∧
      changed.openHandles = file.openHandles ∧ changed.dentries? = file.dentries? := by
  cases changes with
  | write =>
    obtain ⟨old, new, isFile, rfl⟩ := write_ok done
    exact ⟨rfl, rfl, (dentries?_file isFile).symm⟩
  | ftruncate =>
    obtain ⟨old, new, isFile, rfl⟩ := truncate_ok done
    exact ⟨rfl, rfl, (dentries?_file isFile).symm⟩
  | _ =>
    cases done
    exact ⟨rfl, rfl, rfl⟩

theorem Scheme.Balanced.changed {change} (balanced : this.Balanced uncounted)
    (changes : Changes this request inode change) :
    Scheme.Balanced ⟨(this.filesystem.onFile inode change).1, this.handles⟩ uncounted := by
  rw [Filesystem.onFile]
  split
  · exact balanced
  next file found =>
  split
  · exact balanced
  next changed done =>
  obtain ⟨nlink, openHandles, same⟩ := changes.counts done
  have touched := Books.touch balanced found nlink openHandles (congrArg Option.isSome same)
  rwa [← funext (linksTo_setFile_same found same)] at touched

theorem dentries?_truncated {data} (kept : truncated flags file.data = .ok data) :
    dentries? { file with data := data } = file.dentries? := by
  rcases truncated_cases kept with rfl | ⟨_, bytes, isFile, rfl⟩
  · rfl
  · exact (dentries?_file isFile).symm

theorem Scheme.Balanced.removed {answer} (balanced : this.Balanced uncounted)
    (regular : ∀ file ∈ this.filesystem.entryOf path ctx.uid ctx.gid,
      directory = false ∧ file.dentries? = none)
    (taken : this.filesystem.removeDentry path ctx.uid ctx.gid directory =
      some (filesystem, answer)) : Scheme.Balanced ⟨filesystem, this.handles⟩ uncounted := by
  rcases Books.removeDentry balanced regular with ⟨_, panics⟩ | ⟨kept, result, ended, books⟩
  · cases taken.symm.trans panics
  · cases taken.symm.trans ended
    exact books

section

variable (balanced : this.Balanced uncounted) {fcntlFlags : Nat}

include balanced

theorem Scheme.Balanced.refused {error} (below : flags &&& O_CREAT ≠ 0 →
      ∀ directory ∈ this.filesystem.directoryOf path ctx.uid ctx.gid, directory.dentries?.isSome)
    (asked : this.filesystem.openInode path flags fcntlFlags ctx.uid ctx.gid =
      some (filesystem, .error error)) : Scheme.Balanced ⟨filesystem, this.handles⟩ uncounted := by
  have opening := openInode_opening this.filesystem path flags fcntlFlags ctx.uid ctx.gid
  rw [asked] at opening
  cases opening with
  | refused _ last later =>
    exact ⟨fun inode late => balanced.fresh inode (later.trans_lt late), balanced.settled⟩
  | stray parentInode name inode parent bytes creates found isFile =>
    obtain ⟨_, old⟩ := balanced.fresh.parent creates.resolved found
    have isDirectory := below creates.asked parent (by
      rw [directoryOf, creates.resolved]
      exact old)
    rw [dentries?_file isFile] at isDirectory
    cases isDirectory

theorem Scheme.Balanced.opened
    (asked : this.filesystem.openInode path flags fcntlFlags ctx.uid ctx.gid =
      some (filesystem, .ok inode)) :
    Scheme.Balanced ⟨filesystem, (this.handles.insert (.inode inode)).1⟩ uncounted := by
  have opening := openInode_opening this.filesystem path flags fcntlFlags ctx.uid ctx.gid
  rw [asked] at opening
  cases opening with
  | opened _ file data opens =>
    have same := dentries?_truncated opens.contents
    have books := Books.open balanced opens.found same (handlesOn_insert this.filesystem inode)
    rwa [← funext (linksTo_setFile_same opens.found same)] at books
  | created parentInode name made parent entries creates found isDirectory =>
    exact Books.create balanced creates found isDirectory (handlesOn_insert _ _) rfl

theorem Scheme.Balanced.schemeRoot : this.schemeRoot.1.Balanced (uncounted + 1) := by
  refine ⟨balanced.fresh, fun inode => ?_⟩
  have settled := balanced.settled inode
  change Settled _ _ _ (handlesOn ⟨_, (this.handles.insert (.inode ROOT_INODE)).1⟩ inode) _
  rw [handlesOn_insert]
  by_cases root : inode = ROOT_INODE
  · subst root
    obtain ⟨file, dentries, found, isDirectory⟩ := settled.root
    change Settled _ _ _ _ (this.filesystem.files.get? ROOT_INODE)
    rw [found, Settled, dentries?_directory isDirectory] at settled ⊢
    refine ⟨?_, settled.2⟩
    rw [if_pos rfl, if_pos rfl, ← settled.1, if_pos rfl, add_assoc]
  · rw [if_neg root]
    change Settled _ _ _ _ (this.filesystem.files.get? inode)
    cases found : this.filesystem.files.get? inode with
    | none => rwa [found] at settled
    | some file =>
      rw [found, Settled, if_neg root] at settled
      rw [Settled, if_neg root]
      exact settled

/-- The only handles that cannot be closed are those on the root when all the handles
on it that are counted have been closed. -/
theorem Scheme.Balanced.onClose_none (fd : Nat) :
    this.onClose fd = none ↔ this.handles.get? fd = some (.inode ROOT_INODE) ∧
      ∃ root, this.filesystem.files.get? ROOT_INODE = some root ∧ root.openHandles = 0 := by
  rw [onClose]
  split
  next unheld =>
    have none : this.handles.get? fd = none := congrArg Prod.snd unheld
    rw [none]
    constructor <;> rintro ⟨⟨⟩, _⟩
  next handles inode removed =>
  have held : this.handles.get? fd = some (.inode inode) := congrArg Prod.snd removed
  have settled := balanced.settled inode
  split
  next absent =>
    rw [absent] at settled
    exact absurd settled.2.2 (handlesOn_pos_iff.mpr ⟨fd, held⟩).ne'
  next info found =>
  have positive := handlesOn_pos_iff.mpr ⟨fd, held⟩
  rw [found] at settled
  have counted := settled.1
  split
  next zero =>
    have root : inode = ROOT_INODE := by
      by_contra other
      rw [if_neg other] at counted
      omega
    subst root
    exact ⟨fun _ => ⟨held, info, found, zero⟩, fun _ => rfl⟩
  next more =>
  constructor
  · intro panics
    split at panics <;> cases panics
  · rintro ⟨onRoot, root, present, zero⟩
    cases held.symm.trans onRoot
    cases found.symm.trans present
    exact absurd zero more

theorem Scheme.Balanced.closed (held : this.handles.get? fd = some (.inode inode))
    (closes : Closes this.filesystem inode filesystem) :
    Scheme.Balanced ⟨filesystem, (this.handles.remove fd).1⟩ uncounted := by
  have fewer := fun other => handlesOn_remove this.filesystem other held
  have one := fewer inode
  rw [if_pos rfl] at one
  have others : ∀ other, other ≠ inode →
      handlesOn ⟨this.filesystem, (this.handles.remove fd).1⟩ other =
        this.handlesOn other := by
    intro other different
    have equal := fewer other
    rwa [if_neg different, add_zero] at equal
  cases closes with
  | absent absent =>
    have settled := balanced.settled inode
    rw [absent] at settled
    exact absurd settled.2.2 (handlesOn_pos_iff.mpr ⟨fd, held⟩).ne'
  | dropped found counted unused =>
    have closed := Books.close balanced found counted others one
    rw [if_pos unused] at closed
    obtain ⟨books, dentries⟩ := closed
    have same : ∀ other, linksTo { this.filesystem with
        files := this.filesystem.files.erase inode } other =
          this.filesystem.linksTo other := by
      intro other
      have moved := linksTo_erase other found
      rwa [dentries, naming, add_zero] at moved
    rwa [← funext same] at books
  | counted found counted used =>
    have closed := Books.close balanced found counted others one
    rw [if_neg used] at closed
    rwa [← funext (linksTo_setFile_same found rfl)] at closed

end

end Steps

section Runs

def Request.isSchemeRoot : Request → Bool
  | .schemeRoot => true
  | _ => false

def rootsGiven (history : List (Transition Scheme Event (Result Reply))) : Nat :=
  history.countP fun step => step.event.request.isSchemeRoot

theorem rootsGiven_append {history step} : rootsGiven (history ++ [step]) =
      rootsGiven history + if step.event.request.isSchemeRoot then 1 else 0 := by
  rw [rootsGiven, countP_append, countP_singleton]
  rfl

theorem isSchemeRoot_of_ne (other : request ≠ .schemeRoot) : request.isSchemeRoot = false := by
  cases request with
  | schemeRoot => exact absurd rfl other
  | _ => rfl

theorem step_balanced {output} (balanced : this.Balanced uncounted) (orderly : Orderly this event)
    (stepped : ramfs.step this event = some (after, output)) :
    after.Balanced (uncounted + if event.request.isSchemeRoot then 1 else 0) := by
  obtain ⟨request, ctx⟩ := event
  cases step_effect stepped with
  | kept other =>
    rw [isSchemeRoot_of_ne other]
    exact balanced
  | rooted => exact balanced.schemeRoot
  | refused _ asked => exact balanced.refused orderly asked
  | opened _ asked => exact balanced.opened asked
  | removed removes taken => cases removes <;> exact balanced.removed orderly taken
  | changed changes =>
    have kept := balanced.changed changes
    cases changes <;> exact kept
  | closed held closes => exact balanced.closed held closes

theorem start_balanced : ramfs.start.Balanced 0 := by
  have fresh : ramfs.start.filesystem.Fresh := fresh_reachable ⟨[], .start⟩
  refine ⟨fresh, fun inode => ?_⟩
  by_cases root : inode = ROOT_INODE
  · subst root
    exact ⟨rfl, rfl⟩
  have absent : ramfs.start.filesystem.files.get? inode = none := by
    change (Table.empty.insert ROOT_INODE createRootInode).get? inode = none
    rw [Table.get?_insert, if_neg root]
    rfl
  rw [absent]
  exact ⟨root, rfl, rfl⟩

theorem run_balanced {history}
    (run : ramfs.Run Orderly history state) : state.Balanced (rootsGiven history) := by
  induction run with
  | start => exact start_balanced
  | step _ orderly stepped ih =>
    rw [rootsGiven_append]
    exact step_balanced ih orderly stepped

theorem Scheme.Balanced.ledger (balanced : this.Balanced uncounted) : Ledger uncounted this where
  entries inode directory dentries name target found isDirectory named :=
    Books.present balanced
      (linksTo_pos_iff.mpr ⟨inode, directory, dentries, name, found, isDirectory, named⟩)
  files inode file bytes found isFile := by
    have settled := balanced.settled inode
    rw [found, Settled, dentries?_file isFile] at settled
    exact settled.2.2.1
  kept inode other := by
    have settled := balanced.settled inode
    cases found : this.filesystem.files.get? inode with
    | none =>
      rw [found] at settled
      obtain ⟨_, links, handles⟩ := settled
      rw [links, handles]
      simp
    | some file =>
      rw [found, Settled] at settled
      refine ⟨fun _ => ?_, fun _ => ⟨file, rfl⟩⟩
      have rest := settled.2
      cases dentries : file.dentries? with
      | none =>
        rw [dentries] at rest
        exact rest.2.2
      | some entries =>
        rw [dentries] at rest
        rw [if_neg other] at rest
        exact Or.inl rest.2
  used inode file other found := by
    have settled := balanced.settled inode
    rw [found, Settled, if_neg other] at settled
    obtain ⟨counted, rest⟩ := settled
    cases dentries : file.dentries? with
    | none =>
      rw [dentries] at rest
      omega
    | some entries =>
      rw [dentries] at rest
      rw [if_neg other] at rest
      omega
  directories inode directory dentries found isDirectory := by
    have settled := balanced.settled inode
    rw [found, Settled, dentries?_directory isDirectory] at settled
    have rest := settled.2
    rw [ownLinks]
    by_cases root : inode = ROOT_INODE
    · rw [if_pos root] at rest
      rw [if_pos (Or.inl root), if_pos root, rest]
    · rw [if_neg root] at rest
      rw [if_pos (Or.inr rest.2), if_neg root, rest.1]
  handles inode file found := by
    have settled := balanced.settled inode
    rw [found] at settled
    exact settled.1
  closes := balanced.onClose_none
  removes path directory ctx orderly panics := by
    rcases Books.removeDentry balanced orderly with ⟨unresolved, _⟩ | ⟨after, result, ended, _⟩
    · exact unresolved
    · cases panics.symm.trans ended

end Runs

section Quiet

/-- Nothing has been opened: no handle is there, and nothing but the bare root. -/
structure Quiet (this : Scheme) : Prop where
  unheld : ∀ fd, this.handles.get? fd = none
  root : ∃ root, this.filesystem.files.get? ROOT_INODE = some root ∧
    root.data = .directory .empty ∧ root.openHandles = 0
  alone : ∀ inode, inode ≠ ROOT_INODE → this.filesystem.files.get? inode = none

section

variable (quiet : Quiet this)

include quiet

theorem Quiet.found (found : this.filesystem.files.get? inode = some file) :
    inode = ROOT_INODE ∧ file.data = .directory .empty ∧ file.openHandles = 0 := by
  by_cases root : inode = ROOT_INODE
  · obtain ⟨file, present, facts⟩ := quiet.root
    subst root
    cases found.symm.trans present
    exact ⟨rfl, facts⟩
  · cases found.symm.trans (quiet.alone inode root)

theorem Quiet.handlesOn (inode : Nat) : this.handlesOn inode = 0 := by
  by_contra some
  obtain ⟨fd, found⟩ := handlesOn_pos_iff.mp (pos_of_ne_zero some)
  cases found.symm.trans (quiet.unheld fd)

theorem Quiet.entryOf (path : Name) (uid gid : Nat) :
    this.filesystem.entryOf path uid gid = none := by
  rw [Filesystem.entryOf]
  split
  next parentInode name _ =>
    cases found : this.filesystem.files.get? parentInode with
    | none => rfl
    | some parent =>
      rw [Option.bind_some, dentries?_directory (quiet.found found).2.1]
      rfl
  · rfl

theorem Quiet.orderly (event : Event) : Orderly this event := by
  rw [Orderly]
  split
  · intro _ directory found
    rw [directoryOf] at found
    split at found
    · rw [dentries?_directory (quiet.found found).2.1]
      rfl
    · cases found
  · intro file found
    rw [quiet.entryOf] at found
    cases found
  · intro file found
    rw [quiet.entryOf] at found
    cases found
  · trivial

theorem Quiet.changed {change} (changes : Changes this request inode change) :
    Quiet ⟨(this.filesystem.onFile inode change).1, this.handles⟩ := by
  rw [Filesystem.onFile]
  split
  · exact quiet
  next file found =>
  split
  · exact quiet
  next changed done =>
  obtain ⟨rfl, isDirectory, unopened⟩ := quiet.found found
  obtain ⟨nlink, openHandles, same⟩ := changes.counts done
  refine ⟨quiet.unheld, ⟨changed, ?_, ?_, openHandles.trans unopened⟩, ?_⟩
  · exact (get?_setFile).trans (if_pos rfl)
  · rw [dentries?_directory isDirectory] at same
    exact directory_of_dentries? same
  · intro other different
    exact (get?_setFile).trans ((if_neg different).trans (quiet.alone other different))

theorem Quiet.removed {answer}
    (taken : this.filesystem.removeDentry path ctx.uid ctx.gid directory =
      some (filesystem, answer)) : Quiet ⟨filesystem, this.handles⟩ := by
  rcases removeDentry_cases this.filesystem directory with
    ⟨parentInode, parent, dentries, name, target, takes, _⟩ | ⟨_, ⟨_, panics⟩ | ⟨error, refused⟩⟩
  · cases takes.isDirectory.symm.trans (quiet.found takes.found).2.1
    cases takes.named
  · cases taken.symm.trans panics
  · cases taken.symm.trans refused
    exact quiet

theorem step_quiet {output} (other : event.request.isSchemeRoot = false)
    (stepped : ramfs.step this event = some (after, output)) : Quiet after := by
  obtain ⟨request, ctx⟩ := event
  cases step_effect stepped with
  | kept => exact quiet
  | rooted => cases other
  | refused held | closed held | opened held => cases held.symm.trans (quiet.unheld _)
  | removed _ taken => exact quiet.removed taken
  | changed changes => exact quiet.changed changes

theorem Quiet.accounts (balanced : this.Balanced 0) : Accounts this where
  toKept := balanced.ledger.toKept
  directories inode directory dentries found isDirectory := by
    cases isDirectory.symm.trans (quiet.found found).2.1
    exact balanced.ledger.directories inode directory _ found isDirectory
  handles inode file found := by
    rw [quiet.handlesOn, (quiet.found found).2.2]
  closes fd panics := by
    obtain ⟨held, _⟩ := (balanced.onClose_none fd).mp panics
    cases held.symm.trans (quiet.unheld fd)
  removes path uid gid directory :=
    balanced.ledger.removes path directory ⟨uid, gid⟩ (quiet.orderly _)

theorem Quiet.schemeRoot_unaccounted : ¬ Accounts this.schemeRoot.1 := by
  intro accounts
  obtain ⟨root, found, _, unopened⟩ := quiet.root
  have counted := accounts.handles ROOT_INODE root found
  change root.openHandles =
    Scheme.handlesOn ⟨_, (this.handles.insert (.inode ROOT_INODE)).1⟩ ROOT_INODE at counted
  rw [handlesOn_insert, if_pos rfl, unopened] at counted
  exact absurd counted.symm (succ_ne_zero _)

end

theorem run_quiet {history} (run : ramfs.Run (fun _ _ => True) history state)
    (unasked : rootsGiven history = 0) :
    Quiet state ∧ state.Balanced 0 := by
  induction run with
  | start =>
    refine ⟨⟨fun _ => rfl, ⟨createRootInode, rfl, rfl, rfl⟩, fun inode root => ?_⟩, start_balanced⟩
    change (Table.empty.insert ROOT_INODE createRootInode).get? inode = none
    rw [Table.get?_insert, if_neg root]
    rfl
  | @step history before event output after _ _ stepped ih =>
    rw [rootsGiven_append] at unasked
    obtain ⟨earlier, last⟩ := Nat.add_eq_zero_iff.mp unasked
    obtain ⟨quiet, balanced⟩ := ih earlier
    have other : event.request.isSchemeRoot = false := by
      by_contra root
      rw [if_pos (Bool.of_not_eq_false root)] at last
      cases last
    have kept := step_balanced balanced (quiet.orderly event) stepped
    rw [other] at kept
    exact ⟨step_quiet quiet other stepped, kept⟩

/-- The accounts are right in all states of a run just if no root handle is given out
in it; nothing can be opened then.  In every orderly run the ledger is right. -/
theorem accounts_right_iff {history : List (Transition Scheme Event (Result Reply))}
    {state : Scheme} (run : ramfs.Run (fun _ _ => True) history state) :
    ((Accounts ramfs.start ∧ ∀ step ∈ history, Accounts step.after) ↔ rootsGiven history = 0) ∧
      (ramfs.Run Orderly history state → Ledger (rootsGiven history) state) := by
  refine ⟨?_, fun orderly => (run_balanced orderly).ledger⟩
  induction run with
  | start =>
    obtain ⟨quiet, balanced⟩ := run_quiet (.start : ramfs.Run (fun _ _ => True) [] _) rfl
    refine ⟨fun _ => rfl, fun _ => ⟨quiet.accounts balanced, ?_⟩⟩
    intro step member
    cases member
  | @step history before event output after run _ stepped ih =>
    constructor
    · rintro ⟨first, each⟩
      have earlier := ih.mp ⟨first, fun step member => each step (mem_append_left _ member)⟩
      rw [rootsGiven_append, earlier]
      obtain ⟨request, ctx⟩ := event
      cases request with
      | schemeRoot =>
        cases stepped
        have accounts := each _ (mem_append_right _ mem_cons_self)
        exact absurd accounts (run_quiet run earlier).1.schemeRoot_unaccounted
      | _ => rfl
    · intro unasked
      obtain ⟨quiet, balanced⟩ := run_quiet (run.step trivial stepped) unasked
      rw [rootsGiven_append] at unasked
      obtain ⟨first, each⟩ := ih.mpr (Nat.eq_zero_of_add_eq_zero_right unasked)
      refine ⟨first, fun step member => ?_⟩
      rcases mem_append.mp member with old | new
      · exact each step old
      · rw [mem_singleton.mp new]
        exact quiet.accounts balanced

/-- A file is made and removed, and closed by the one who made it. -/
def briefFile : List Event :=
  [⟨.schemeRoot, ⟨0, 0⟩⟩, ⟨.openat 1 [97] (O_CREAT ||| O_RDWR ||| 0o644) 0, ⟨0, 0⟩⟩,
    ⟨.removeDentry [97] false, ⟨0, 0⟩⟩, ⟨.onClose 2, ⟨0, 0⟩⟩]

theorem accounts_right_iff_briefFile : ∃ history state, ramfs.Run Orderly history state ∧
      history.map (fun step => (step.after.filesystem.files.get? 2).map nlink) =
        [none, some 1, some 0, none] ∧
      ((Accounts ramfs.start ∧ ∀ step ∈ history, Accounts step.after) ↔ rootsGiven history = 0) ∧
      Ledger (rootsGiven history) state := by
  have run := ramfs.run_replay Orderly briefFile (by decide +kernel)
  obtain ⟨right, ledger⟩ := accounts_right_iff (run.mono fun _ _ _ => trivial)
  exact ⟨_, _, run, rfl, right, ledger run⟩

/-- A directory is made and removed, and another one is made. -/
def secondDirectory : List Event :=
  [⟨.schemeRoot, ⟨0, 0⟩⟩,
    ⟨.openat 1 [100] (O_CREAT ||| O_DIRECTORY ||| O_RDWR ||| 0o755) 0, ⟨0, 0⟩⟩,
    ⟨.removeDentry [100] true, ⟨0, 0⟩⟩,
    ⟨.openat 1 [101] (O_CREAT ||| O_DIRECTORY ||| O_RDWR ||| 0o755) 0, ⟨0, 0⟩⟩]

/-- The first root handle is not counted, and closing it takes one from zero.  Removing a
directory takes a link from its parent that making it has not added, so that the second
removal takes one from zero. -/
theorem counts_fall_below_zero :
    (∃ history state, ramfs.Run (fun _ _ => True) history state ∧ ¬ Accounts state ∧
      state.handlesOn ROOT_INODE = 1 ∧
      (state.filesystem.files.get? ROOT_INODE).map openHandles = some 0 ∧
      state.onClose 1 = none) ∧
    ∃ history state, ramfs.Run (fun _ _ => True) history state ∧ ¬ Accounts state ∧
      (state.filesystem.files.get? ROOT_INODE).map nlink = some 0 ∧
      state.filesystem.removeDentry [101] 0 0 true = none := by
  constructor
  · have run := ramfs.run_replay (fun _ _ => True) [⟨.schemeRoot, ⟨0, 0⟩⟩] (by decide +kernel)
    refine ⟨_, _, run, fun accounts => ?_, rfl, rfl, rfl⟩
    exact accounts.closes 1 rfl
  · have run := ramfs.run_replay (fun _ _ => True) secondDirectory (by decide +kernel)
    refine ⟨_, _, run, fun accounts => ?_, rfl, rfl⟩
    cases accounts.removes [101] 0 0 true rfl

end Quiet

end EosBase.Ramfs
