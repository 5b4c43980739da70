import EosBase.Ramfs.Fate

/-!
# Who may change what

For every request of a user other than root: a directory gains or loses an entry only
where the user may write, contents change only through a handle that was opened for
writing when that was allowed, and owner, group and mode change only for the owner.
The scheme checks less than that.  What it does not check is left to the clients, and
`Careful` says what they have to keep to.
-/

namespace EosBase.Ramfs

open Redox Filesystem HandleMap Option List

variable {this : Scheme} {event : Event} {after : Scheme}

def reachOf (this : Scheme) (event : Event) (inode : Nat) : Reach where
  relists :=
    match event.request with
    | .openat _ path flags _ => ∃ name made,
        this.filesystem.Creates path flags event.ctx.uid event.ctx.gid inode name made
    | .unlinkat _ path _ => ∃ parent dentries name target,
        this.filesystem.Takes path event.ctx.uid event.ctx.gid inode parent dentries name target
    | .removeDentry path _ => ∃ parent dentries name target,
        this.filesystem.Takes path event.ctx.uid event.ctx.gid inode parent dentries name target
    | .onClose fd => this.handles.get? fd = some (.inode inode) ∧
        ∃ info, this.filesystem.files.get? inode = some info ∧ info.nlink = 0 ∧ info.listing ≠ []
    | _ => False
  rewrites :=
    match event.request with
    | .openat _ path flags fcntlFlags => ∃ file data,
        this.filesystem.Opens path (effectiveFlags flags fcntlFlags) event.ctx.uid event.ctx.gid
          inode file data ∧ opensForWriting (effectiveFlags flags fcntlFlags)
    | .write fd _ _ _ => this.handles.get? fd = some (.inode inode)
    | .ftruncate fd _ _ => this.handles.get? fd = some (.inode inode)
    | _ => False
  reowns :=
    match event.request with
    | .fchmod fd _ => this.handles.get? fd = some (.inode inode)
    | .fchown fd _ _ => fd = inode
    | .stdFsFchown fd _ _ => fd = inode
    | _ => False
  makes :=
    match event.request with
    | .openat _ _ _ _ => inode = this.filesystem.lastInodeNumber + 1
    | _ => False

variable {flags : Nat} {path : Name} {filesystem : Filesystem} {fcntlFlags dirfd fd : Nat}
  {inode : Nat}

theorem step_fates {output} (fresh : this.filesystem.Fresh)
    (stepped : ramfs.step this event = some (after, output)) :
    Fates (reachOf this event) this.filesystem after.filesystem := by
  obtain ⟨request, ctx⟩ := event
  cases step_effect stepped with
  | kept | rooted => exact Fates.refl _ _
  | refused _ asked | opened _ asked =>
    apply fates_openInode fresh asked rfl
    · intro inode file data opens writes
      exact ⟨file, data, opens, writes⟩
    · intro parentInode name inode creates
      exact ⟨name, inode, creates⟩
  | removed removes taken =>
    apply fates_removeDentry taken
    · intro inode
      cases removes <;> exact id
    · intro parentInode parent dentries name target takes
      cases removes <;> exact ⟨parent, dentries, name, target, takes⟩
  | changed changes =>
    apply fates_onFile
    intro file changed _ done
    cases changes with
    | write held =>
      obtain ⟨old, new, isFile, rfl⟩ := File.write_ok done
      exact Fate.rewritten held isFile rfl rfl
    | ftruncate held =>
      obtain ⟨old, new, isFile, rfl⟩ := File.truncate_ok done
      exact Fate.rewritten held isFile rfl rfl
    | fchmod held =>
      cases done
      exact ⟨Or.inr rfl, Or.inr rfl, Or.inl held⟩
    | fchown | stdFsFchown =>
      cases done
      exact ⟨Or.inr rfl, Or.inr rfl, Or.inl rfl⟩
  | closed held closes =>
    apply fates_closes closes
    intro info found unlinked listed
    exact ⟨held, info, found, unlinked, listed⟩

theorem fresh_reachable (reached : ramfs.Reachable this) : this.filesystem.Fresh := by
  apply reached.invariant
  · intro inode late
    change ROOT_INODE < inode at late
    change (Table.empty.insert ROOT_INODE createRootInode).get? inode = none
    rw [Table.get?_insert, if_neg late.ne']
    rfl
  · intro before event after output _ fresh _ stepped
    exact (step_fates fresh stepped).fresh fresh

section Handles

theorem step_handles {output} (stepped : ramfs.step this event = some (after, output)) :
    after.handles = this.handles ∨ (∃ handle, after.handles = (this.handles.insert handle).1) ∨
      ∃ fd, after.handles = (this.handles.remove fd).1 := by
  obtain ⟨request, ctx⟩ := event
  cases step_effect stepped with
  | kept | refused | removed | changed => exact Or.inl rfl
  | rooted | opened => exact Or.inr (Or.inl ⟨_, rfl⟩)
  | closed => exact Or.inr (Or.inr ⟨_, rfl⟩)

/-- The number of a handle stands for that handle or, once closed, for none. -/
def Given (fd : Nat) (handle : Handle) (this : Scheme) : Prop :=
  fd < this.handles.nextId ∧ ∀ other, this.handles.get? fd = some other → other = handle

theorem step_given {output handle} (given : Given fd handle this)
    (stepped : ramfs.step this event = some (after, output)) : Given fd handle after := by
  rcases step_handles stepped with same | ⟨new, inserted⟩ | ⟨closed, removed⟩
  · rwa [Given, same]
  · rw [Given, inserted]
    refine ⟨given.1.trans nextId_insert, fun other found => ?_⟩
    rw [get?_insert, if_neg given.1.ne] at found
    exact given.2 other found
  · rw [Given, removed]
    refine ⟨given.1, fun other found => ?_⟩
    rw [get?_remove] at found
    split at found
    · cases found
    · exact given.2 other found

theorem given_path {allowed handle history} (given : Given fd handle this)
    (path : ramfs.Path allowed this history after) : Given fd handle after := by
  induction path with
  | start => exact given
  | step _ _ stepped ih => exact step_given ih stepped

end Handles

theorem checkPermissions_write {perm} (permitted : checkPermissions flags perm = .ok ())
    (writes : opensForWriting flags) : perm &&& 0o2 ≠ 0 := by
  rw [checkPermissions] at permitted
  simp only [opensForWriting, Bool.or_eq_true, beq_iff_eq] at writes
  rcases writes with writeOnly | readWrite
  · have reads : ¬ (flags &&& O_ACCMODE = O_RDONLY ∧ perm &&& 0o4 = 0) := by
      rw [writeOnly]
      exact fun reads => absurd reads.1 (by decide)
    rw [if_neg reads] at permitted
    split at permitted
    · cases permitted
    next allowed => exact fun none => allowed ⟨writeOnly, none⟩
  · have wrong : ∀ {mode bits : Nat}, O_RDWR ≠ mode → ¬ (flags &&& O_ACCMODE = mode ∧
        perm &&& bits = 0) := fun different found => different (readWrite.symm.trans found.1)
    rw [if_neg (wrong (by decide)), if_neg (wrong (by decide))] at permitted
    split at permitted
    · cases permitted
    next allowed =>
    have both : perm &&& 0o6 = 0o6 := not_not.mp fun lacking => allowed ⟨readWrite, lacking⟩
    have one : perm &&& 0o2 = (perm &&& 0o6) &&& 0o2 := (Nat.and_assoc perm 0o6 0o2).symm
    rw [one, both]
    decide

theorem opened_allowed {ctx} (fresh : this.filesystem.Fresh)
    (stepped : ramfs.step this ⟨.openat dirfd path flags fcntlFlags, ctx⟩ =
      some (after, some (.ok (.thisScheme fd))))
    (writes : opensForWriting (effectiveFlags flags fcntlFlags)) :
    ∃ inode file, after.handles.get? fd = some (.inode inode) ∧ fd < after.handles.nextId ∧
      after.filesystem.files.get? inode = some file ∧
      currentPerm file ctx.uid ctx.gid &&& 0o2 ≠ 0 := by
  cases step_effect stepped with
  | kept _ unanswered => exact absurd rfl (unanswered fd)
  | @opened _ _ _ _ filesystem inode _ asked =>
    have held : (this.handles.insert (.inode inode)).1.get? this.handles.nextId =
        some (.inode inode) := by
      rw [get?_insert, if_pos rfl]
    have opening := openInode_opening this.filesystem path flags fcntlFlags ctx.uid ctx.gid
    rw [asked] at opening
    cases opening with
    | opened _ file data opens =>
      refine ⟨inode, { file with data := data, openHandles := file.openHandles + 1 }, held,
        nextId_insert, ?_, checkPermissions_write opens.permitted writes⟩
      rw [get?_setFile, if_pos rfl]
    | created parentInode name made parent entries creates found isDirectory =>
      obtain ⟨different, _⟩ := fresh.parent creates.resolved found
      rw [effectiveFlags, if_pos creates.asked] at writes
      refine ⟨_, made, held, nextId_insert, ?_, checkPermissions_write creates.permitted writes⟩
      rw [get?_setFile, if_neg different.symm, withInode, Table.get?_insert, if_pos rfl]
  | removed removes => cases removes
  | changed changes => cases changes

section Protection

def listingOf (this : Scheme) (inode : Nat) : List (Σ _ : Name, Nat) :=
  ((this.filesystem.files.get? inode).map File.listing).getD []

def contentsOf (this : Scheme) (inode : Nat) : Option (List UInt8) :=
  (this.filesystem.files.get? inode).bind File.contents?

def MayWrite (this : Scheme) (inode : Nat) (ctx : CallerCtx) : Prop :=
  ∃ file, this.filesystem.files.get? inode = some file ∧
    currentPerm file ctx.uid ctx.gid &&& 0o2 ≠ 0

def Owns (this : Scheme) (inode : Nat) (ctx : CallerCtx) : Prop :=
  ∀ file, this.filesystem.files.get? inode = some file → file.uid = ctx.uid

def AsksToWrite (event : Event) : Prop :=
  ∃ dirfd path flags fcntlFlags, event.request = .openat dirfd path flags fcntlFlags ∧
    opensForWriting (effectiveFlags flags fcntlFlags)

def Opened (step : Transition Scheme Event (Result Reply)) (fd : Nat) : Prop :=
  AsksToWrite step.event ∧ step.output = some (.ok (.thisScheme fd))

def Request.through : Request → Option Nat
  | .write fd _ _ _ => some fd
  | .ftruncate fd _ _ => some fd
  | _ => none

/-- What the scheme does not check is true of the request: who creates may write the
directory, who writes has opened the file for writing, who changes owner, group or
mode is the owner of the inode that the request reaches, and a directory that is
dropped when it is closed is empty. -/
def Careful (earlier : List (Transition Scheme Event (Result Reply))) (this : Scheme)
    (event : Event) : Prop :=
  match event.request with
  | .openat _ path flags _ => ∀ parentInode name made,
      this.filesystem.Creates path flags event.ctx.uid event.ctx.gid parentInode name made →
        MayWrite this parentInode event.ctx
  | .write fd _ _ _ => ∃ opening ∈ earlier, Opened opening fd
  | .ftruncate fd _ _ => ∃ opening ∈ earlier, Opened opening fd
  | .fchmod fd _ => ∀ inode, this.handles.get? fd = some (.inode inode) → Owns this inode event.ctx
  | .fchown fd _ _ => Owns this fd event.ctx
  | .stdFsFchown fd _ _ => Owns this fd event.ctx
  | .onClose fd => ∀ inode info, this.handles.get? fd = some (.inode inode) →
      this.filesystem.files.get? inode = some info → info.nlink = 0 → info.listing = []
  | _ => True

structure Protected (earlier : List (Transition Scheme Event (Result Reply)))
    (step : Transition Scheme Event (Result Reply)) : Prop where
  entries : ∀ inode, listingOf step.after inode ≠ listingOf step.before inode →
    MayWrite step.before inode step.event.ctx
  contents : ∀ inode old new, contentsOf step.before inode = some old →
    contentsOf step.after inode = some new → new ≠ old →
      (∃ fd, step.event.request.through = some fd ∧
        step.before.handles.get? fd = some (.inode inode) ∧
        ∃ opening ∈ earlier, Opened opening fd ∧
          MayWrite opening.after inode opening.event.ctx) ∨
      (AsksToWrite step.event ∧ MayWrite step.before inode step.event.ctx)
  owners : ∀ inode file changed, step.before.filesystem.files.get? inode = some file →
    step.after.filesystem.files.get? inode = some changed →
    changed.ownership ≠ file.ownership → file.uid = step.event.ctx.uid

theorem relists_allowed {earlier} (careful : Careful earlier this event)
    (relists : (reachOf this event inode).relists) : MayWrite this inode event.ctx := by
  obtain ⟨request, ctx⟩ := event
  cases request with
  | openat dirfd path flags fcntlFlags =>
    obtain ⟨name, made, creates⟩ := relists
    exact careful inode name made creates
  | unlinkat | removeDentry =>
    obtain ⟨parent, dentries, name, target, takes⟩ := relists
    exact ⟨parent, takes.found, takes.allowed⟩
  | onClose fd =>
    obtain ⟨held, info, found, unlinked, listed⟩ := relists
    exact absurd (careful inode info held found unlinked) listed
  | _ => exact absurd relists id

theorem reowns_allowed {earlier} (careful : Careful earlier this event)
    (reowns : (reachOf this event inode).reowns) : Owns this inode event.ctx := by
  obtain ⟨request, ctx⟩ := event
  cases request with
  | fchmod fd mode => exact careful inode reowns
  | fchown | stdFsFchown => exact reowns ▸ careful
  | _ => exact absurd reowns id

theorem opened_mayWrite {allowed earlier opening}
    (path : ramfs.Run allowed earlier this) (member : opening ∈ earlier)
    (opened : Opened opening fd) (held : this.handles.get? fd = some (.inode inode)) :
    MayWrite opening.after inode opening.event.ctx := by
  obtain ⟨front, back, split⟩ := append_of_mem member
  obtain ⟨before, stepped, -, later⟩ := path.split split
  have reached : ramfs.ReachableWhile allowed opening.before := ⟨front, before⟩
  have fresh := fresh_reachable reached.reachable
  obtain ⟨⟨dirfd, name, flags, fcntlFlags, asked, writes⟩, answered⟩ := opened
  have event : opening.event = ⟨.openat dirfd name flags fcntlFlags, opening.event.ctx⟩ := by
    rw [← asked]
  rw [event, answered] at stepped
  obtain ⟨first, file, given, early, found, allowed⟩ := opened_allowed fresh stepped writes
  have onward : Given fd (.inode first) opening.after :=
    ⟨early, fun other same => some.inj (same.symm.trans given)⟩
  cases (given_path onward later).2 _ held
  exact ⟨file, found, allowed⟩

theorem rewrites_allowed {allowed earlier} (path : ramfs.Run allowed earlier this)
    (careful : Careful earlier this event) (rewrites : (reachOf this event inode).rewrites) :
    (∃ fd, event.request.through = some fd ∧ this.handles.get? fd = some (.inode inode) ∧
      ∃ opening ∈ earlier, Opened opening fd ∧ MayWrite opening.after inode opening.event.ctx) ∨
    (AsksToWrite event ∧ MayWrite this inode event.ctx) := by
  obtain ⟨request, ctx⟩ := event
  cases request with
  | openat dirfd name flags fcntlFlags =>
    obtain ⟨file, data, opens, writes⟩ := rewrites
    refine Or.inr ⟨⟨dirfd, name, flags, fcntlFlags, rfl, writes⟩, file, opens.found, ?_⟩
    exact checkPermissions_write opens.permitted writes
  | write fd | ftruncate fd =>
    obtain ⟨opening, member, opened⟩ := careful
    refine Or.inl ⟨fd, rfl, rewrites, opening, member, opened, ?_⟩
    exact opened_mayWrite path member opened rewrites
  | _ => exact absurd rewrites id

/-- In every run, a step that does not rely on checks that the scheme omits changes
nothing that its caller may not change. -/
theorem careful_step_protected {history : List (Transition Scheme Event (Result Reply))}
    {state : Scheme} (run : ramfs.Run (fun _ _ => True) history state)
    {earlier later : List (Transition Scheme Event (Result Reply))}
    {step : Transition Scheme Event (Result Reply)} (split : history = earlier ++ step :: later)
    (careful : Careful earlier step.before step.event) : Protected earlier step := by
  obtain ⟨before, stepped, _⟩ := run.split split
  have fates := step_fates (fresh_reachable ⟨earlier, before⟩) stepped
  refine ⟨?_, ?_, ?_⟩
  · intro inode changed
    apply relists_allowed careful
    by_contra kept
    exact changed ((fates.each inode).same_listing kept)
  · intro inode old new held holds changed
    apply rewrites_allowed before careful
    by_contra kept
    obtain ⟨file, first, isOld⟩ := bind_eq_some_iff.mp held
    obtain ⟨after, second, isNew⟩ := bind_eq_some_iff.mp holds
    have fate := fates.each inode
    rw [first, second] at fate
    have same := fate.2.1.resolve_left kept
    rw [isOld, isNew] at same
    exact changed (some.inj same)
  · intro inode file after first second changed
    have fate := fates.each inode
    rw [first, second] at fate
    exact reowns_allowed careful (fate.2.2.resolve_right changed) file first

/-- Root makes a file that everybody may write, and a user opens and writes it. -/
def sharedFile : List Event :=
  [⟨.schemeRoot, ⟨0, 0⟩⟩, ⟨.openat 1 [97] (O_CREAT ||| O_RDWR ||| 0o666) 0, ⟨0, 0⟩⟩,
    ⟨.openat 1 [97] O_RDWR 0, ⟨1000, 1000⟩⟩, ⟨.write 3 [104, 105] 0 true, ⟨1000, 1000⟩⟩]

theorem careful_step_protected_write :
    ∃ history state earlier step, ramfs.Run (fun _ _ => True) history state ∧
      history = earlier ++ [step] ∧ step.event.ctx.uid = 1000 ∧
      contentsOf step.before 2 = some [] ∧ contentsOf step.after 2 = some [104, 105] ∧
      Careful earlier step.before step.event ∧ Protected earlier step := by
  have played : (ramfs.replay (fun _ _ => True) ramfs.start sharedFile).isSome = true := by
    decide +kernel
  have run := ramfs.run_replay (fun _ _ => True) sharedFile played
  have split : ((ramfs.replay (fun _ _ => True) ramfs.start sharedFile).get played).1 =
      ((ramfs.replay (fun _ _ => True) ramfs.start sharedFile).get played).1.take 3 ++
        [_] := rfl
  have careful : ∃ opening ∈
      ((ramfs.replay (fun _ _ => True) ramfs.start sharedFile).get played).1.take 3,
        Opened opening 3 :=
    ⟨_, mem_of_getElem? (i := 2) rfl, ⟨1, [97], O_RDWR, 0, rfl, by decide⟩, rfl⟩
  exact ⟨_, _, _, _, run, split, rfl, rfl, rfl, careful, careful_step_protected run split careful⟩

/-- A user makes a file in the root directory, which belongs to root, opens a file of
root's for reading, writes it, and changes its mode. -/
def trespass : List Event :=
  [⟨.schemeRoot, ⟨0, 0⟩⟩, ⟨.openat 1 [97] (O_CREAT ||| O_RDWR ||| 0o644) 0, ⟨0, 0⟩⟩,
    ⟨.openat 1 [98] (O_CREAT ||| O_RDWR ||| 0o600) 0, ⟨1000, 1000⟩⟩,
    ⟨.openat 1 [97] O_RDONLY 0, ⟨1000, 1000⟩⟩, ⟨.write 4 [104, 105] 0 true, ⟨1000, 1000⟩⟩,
    ⟨.fchmod 4 0o777, ⟨1000, 1000⟩⟩]

/-- Nothing stops any of them. -/
theorem trespass_unprotected : ∃ history state, ramfs.Run (fun _ _ => True) history state ∧
      ∀ round ∈ [2, 4, 5], ∃ step, history[round]? = some step ∧ step.event.ctx.uid ≠ 0 ∧
        ¬ Protected (history.take round) step := by
  have run := ramfs.run_replay (fun _ _ => True) trespass (by decide +kernel)
  refine ⟨_, _, run, ?_⟩
  intro round member
  rcases mem_cons.mp member with rfl | member
  · refine ⟨_, rfl, by decide, fun guarded => ?_⟩
    obtain ⟨file, found, writes⟩ := guarded.entries ROOT_INODE (by decide +kernel)
    cases found
    exact writes rfl
  rcases mem_cons.mp member with rfl | member
  · refine ⟨_, rfl, by decide, fun guarded => ?_⟩
    rcases guarded.contents 2 [] [104, 105] rfl rfl (by decide) with through | asked
    · obtain ⟨fd, same, _, opening, earlier, opened, _⟩ := through
      cases same
      -- of the steps so far only the one before gave out this handle
      obtain ⟨index, place⟩ := mem_iff_getElem?.mp earlier
      obtain ⟨⟨_, _, _, _, asked, writes⟩, answered⟩ := opened
      rcases index with _ | _ | _ | _ | more <;> cases place <;> cases answered
      cases asked
      exact absurd writes (by decide)
    · obtain ⟨⟨_, _, _, _, impossible, _⟩, _⟩ := asked
      cases impossible
  · cases mem_singleton.mp member
    refine ⟨_, rfl, by decide, fun guarded => ?_⟩
    exact absurd (guarded.owners 2 _ _ rfl rfl (by decide)) (by decide)

end Protection

section Ownership

variable {uid gid : Nat}

def HandsOver (this : Scheme) (inode uid gid : Nat) (done : Scheme.Done) : Prop :=
  ∃ after file, done = some (after, .ok .done) ∧ this.filesystem.files.get? inode = some file ∧
    ∀ other, after.filesystem.files.get? other =
      if other = inode then some { file with uid := uid, gid := gid }
      else this.filesystem.files.get? other

def Belongs (this : Scheme) (inode uid gid : Nat) : Prop :=
  ∃ file, this.filesystem.files.get? inode = some file ∧ { file with uid := uid, gid := gid } = file

theorem fchown_eq {file} (found : this.filesystem.files.get? fd = some file) :
    this.fchown fd uid gid = some ({ this with
      filesystem := this.filesystem.setFile fd { file with uid := uid, gid := gid } },
      .ok .done) := by
  simp only [Scheme.fchown, onFile, found]
  rfl

theorem handsOver_fchown_iff : HandsOver this inode uid gid (this.fchown fd uid gid) ↔
      (fd = inode ∧ ∃ file, this.filesystem.files.get? inode = some file) ∨
        Belongs this fd uid gid ∧ Belongs this inode uid gid := by
  constructor
  · rintro ⟨after, file, done, found, changed⟩
    by_cases same : fd = inode
    · exact Or.inl ⟨same, file, found⟩
    cases own : this.filesystem.files.get? fd with
    | none =>
      simp only [Scheme.fchown, onFile, own] at done
      cases done
    | some other =>
      rw [fchown_eq own] at done
      cases done
      -- the inode that was changed is not the one behind the handle
      have there := changed fd
      rw [if_neg same, own, setFile, Table.get?_insert_self] at there
      have here := changed inode
      rw [if_pos rfl, setFile, Table.get?_insert, if_neg (Ne.symm same), found] at here
      exact Or.inr ⟨⟨other, own, some_inj.mp there⟩, ⟨file, found, some_inj.mp here.symm⟩⟩
  · rintro (⟨rfl, file, found⟩ | ⟨⟨other, own, there⟩, ⟨file, found, here⟩⟩)
    · exact ⟨_, file, fchown_eq found, found, fun other => Table.get?_insert ..⟩
    · refine ⟨_, file, fchown_eq own, found, fun number => ?_⟩
      rw [there, here, setFile, Table.get?_insert]
      split <;> split <;> simp_all

/-- `fchown` and the call for it hand over the inode behind a handle if that inode has
the number of the handle, and else only where nothing is to be done. -/
theorem fchown_inode_iff (ctx : CallerCtx) (who group : Nat)
    (permitted : who = 0 ∨ who = ctx.uid ∧ group = ctx.gid) (uid_lt : uid < 2 ^ 32)
    (gid_lt : gid < 2 ^ 32) :
    (HandsOver this inode uid gid (this.fchown fd uid gid) ∧ HandsOver this inode uid gid
        (this.stdFsFchown fd (uid + 2 ^ 32 * gid) (.ok (who, group)) ctx)) ↔
      (fd = inode ∧ ∃ file, this.filesystem.files.get? inode = some file) ∨
        Belongs this fd uid gid ∧ Belongs this inode uid gid := by
  have called : this.stdFsFchown fd (uid + 2 ^ 32 * gid) (.ok (who, group)) ctx =
      this.fchown fd uid gid := by
    rw [Scheme.stdFsFchown, if_neg (by omega)]
    congr <;> omega
  rw [called, and_self, handsOver_fchown_iff]

/-- Two handles on the root directory, of which the first has its number. -/
def twoRoots : List Event := [⟨.schemeRoot, ⟨0, 0⟩⟩, ⟨.schemeRoot, ⟨0, 0⟩⟩]

theorem fchown_inode_first : ∃ this, ramfs.Reachable this ∧
    this.handles.get? 1 = some (.inode 1) ∧ HandsOver this 1 7 8 (this.fchown 1 7 8) := by
  have reached := ramfs.reachable_replay twoRoots (by decide +kernel)
  refine ⟨_, reached, rfl, ((fchown_inode_iff ⟨0, 0⟩ 0 0 ?_ ?_ ?_).mpr (Or.inl ⟨rfl, _, rfl⟩)).1⟩
  all_goals decide

theorem fchown_second_fails : ∃ this, ramfs.Reachable this ∧
    this.handles.get? 2 = some (.inode 1) ∧ this.fchown 2 7 8 = this.fail .EBADFD ∧
      ¬ HandsOver this 1 7 8 (this.fchown 2 7 8) := by
  have reached := ramfs.reachable_replay twoRoots (by decide +kernel)
  refine ⟨_, reached, rfl, rfl, ?_⟩
  rintro ⟨_, _, done, _⟩
  cases done

end Ownership

end EosBase.Ramfs
