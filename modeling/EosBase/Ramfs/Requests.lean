import EosBase.Ramfs.Effects

/-!
# What a request does

Every request that is served leaves the state alone, gives out a handle on the root,
opens a path, removes an entry, changes one file, or closes a handle.  `Effect` says
so once, for all arguments about runs.
-/

namespace EosBase.Ramfs

open Redox Filesystem Scheme

theorem File.write_ok {memory} {file changed : File} {buffer offset}
    (written : file.write buffer offset memory = .ok changed) :
    ∃ old new, file.data = .file old ∧ changed = { file with data := .file new } := by
  rw [File.write] at written
  split at written
  · cases written
  next bytes isFile =>
  split at written
  · cases written
  split at written
  · cases written
  split at written
  · cases written
  · cases written
    exact ⟨bytes, _, isFile, rfl⟩

theorem File.truncate_ok {memory} {file changed : File} {size}
    (truncated : file.truncate size memory = .ok changed) :
    ∃ old new, file.data = .file old ∧ changed = { file with data := .file new } := by
  rw [File.truncate] at truncated
  split at truncated
  · cases truncated
  split at truncated
  next bytes isFile =>
    split at truncated
    · cases truncated
    · cases truncated
      exact ⟨bytes, _, isFile, rfl⟩
  · cases truncated

/-- The request changes the file of an inode, if it is there, in this way. -/
inductive Changes (this : Scheme) : Request → Nat → (File → Result File) → Prop where
  | write {fd inode buffer offset memory} : this.handles.get? fd = some (.inode inode) →
      Changes this (.write fd buffer offset memory) inode
        fun file => file.write buffer offset memory
  | ftruncate {fd inode size memory} : this.handles.get? fd = some (.inode inode) →
      Changes this (.ftruncate fd size memory) inode fun file => file.truncate size memory
  | fchmod {fd inode mode} : this.handles.get? fd = some (.inode inode) →
      Changes this (.fchmod fd mode) inode
        fun file => .ok { file with mode := mode ||| (file.mode &&& MODE_TYPE) }
  | fchown {inode uid gid} :
      Changes this (.fchown inode uid gid) inode
        fun file => .ok { file with uid := uid, gid := gid }
  | stdFsFchown {inode arg credentials} :
      Changes this (.stdFsFchown inode arg credentials) inode
        fun file => .ok { file with uid := arg % 2 ^ 32, gid := arg / 2 ^ 32 % 2 ^ 32 }

/-- The request is to remove the entry of a path, as a directory or as a file. -/
inductive Removes : Request → Name → Bool → Prop where
  | unlinkat {dirfd path flags} :
      Removes (.unlinkat dirfd path flags) path (flags &&& AT_REMOVEDIR == AT_REMOVEDIR)
  | removeDentry {path directory} : Removes (.removeDentry path directory) path directory

inductive Closes (this : Filesystem) (inode : Nat) : Filesystem → Prop where
  | absent : this.files.get? inode = none → Closes this inode this
  | dropped {info} : this.files.get? inode = some info → info.openHandles ≠ 0 →
      info.nlink = 0 ∧ info.openHandles - 1 = 0 →
      Closes this inode { this with files := this.files.erase inode }
  | counted {info} : this.files.get? inode = some info → info.openHandles ≠ 0 →
      ¬ (info.nlink = 0 ∧ info.openHandles - 1 = 0) →
      Closes this inode (this.setFile inode { info with openHandles := info.openHandles - 1 })

/-- The state that a request leaves behind, with what is answered if a path was to be
opened. -/
inductive Effect (this : Scheme) (ctx : CallerCtx) :
    Request → Option (Result Reply) → Scheme → Prop where
  | kept {request output} : request ≠ .schemeRoot →
      (∀ fd, output ≠ some (.ok (.thisScheme fd))) → Effect this ctx request output this
  | rooted {output} : Effect this ctx .schemeRoot output this.schemeRoot.1
  | refused {dirfd path flags fcntlFlags filesystem error} :
      this.handles.get? dirfd = some (.inode ROOT_INODE) →
      this.filesystem.openInode path flags fcntlFlags ctx.uid ctx.gid =
        some (filesystem, .error error) →
      Effect this ctx (.openat dirfd path flags fcntlFlags) (some (.error error))
        ⟨filesystem, this.handles⟩
  | opened {dirfd path flags fcntlFlags filesystem inode} :
      this.handles.get? dirfd = some (.inode ROOT_INODE) →
      this.filesystem.openInode path flags fcntlFlags ctx.uid ctx.gid =
        some (filesystem, .ok inode) →
      Effect this ctx (.openat dirfd path flags fcntlFlags)
        (some (.ok (.thisScheme this.handles.nextId)))
        ⟨filesystem, (this.handles.insert (.inode inode)).1⟩
  | removed {request path directory filesystem answer output} : Removes request path directory →
      this.filesystem.removeDentry path ctx.uid ctx.gid directory = some (filesystem, answer) →
      Effect this ctx request output ⟨filesystem, this.handles⟩
  | changed {request inode change output} : Changes this request inode change →
      Effect this ctx request output
        ⟨(this.filesystem.onFile inode change).1, this.handles⟩
  | closed {fd inode filesystem output} : this.handles.get? fd = some (.inode inode) →
      Closes this.filesystem inode filesystem →
      Effect this ctx (.onClose fd) output ⟨filesystem, (this.handles.remove fd).1⟩

def Effects (this : Scheme) (ctx : CallerCtx) (request : Request) :
    Option (Scheme × Result Reply) → Prop :=
  Ends fun done => Effect this ctx request (some done.2) done.1

variable {this : Scheme} {ctx : CallerCtx} {request : Request} {path : Name} {dirfd flags fd : Nat}

theorem fail_effect {error} (other : request ≠ .schemeRoot) :
    Effects this ctx request (this.fail error) :=
  Effect.kept other fun _ => nofun

theorem openat_effect {fcntlFlags} : Effects this ctx (.openat dirfd path flags fcntlFlags)
      (this.openat dirfd path flags fcntlFlags ctx) := by
  rw [openat]
  split
  · exact fail_effect nofun
  next handle got =>
  split
  · exact fail_effect nofun
  next root =>
  obtain ⟨inode⟩ := handle
  have held := HandleMap.get_ok got
  cases not_not.mp root
  refine .map (.intro ?_)
  rintro ⟨filesystem, answer⟩ asked
  cases answer with
  | error error => exact .refused held asked
  | ok inode => exact .opened held asked

theorem removeDentry_effect {directory} (removes : Removes request path directory) :
    Effects this ctx request (this.removeDentry path directory ctx) :=
  .map (.intro fun removed => .removed removes removed)

theorem onHandle_effect {change reply}
    (changes : ∀ inode, this.handles.get? fd = some (.inode inode) →
      Changes this request inode change)
    (other : request ≠ .schemeRoot) : Effects this ctx request (this.onHandle fd change reply) := by
  rw [onHandle]
  split
  · exact fail_effect other
  next handle got =>
  obtain ⟨inode⟩ := handle
  exact .changed (changes inode (HandleMap.get_ok got))

theorem onClose_effect : Ends (Effect this ctx (.onClose fd) none) (this.onClose fd) := by
  rw [onClose]
  split
  · exact .kept nofun fun _ => nofun
  next handles inode removed =>
  have held : this.handles.get? fd = some (.inode inode) := congrArg Prod.snd removed
  have rest : (this.handles.remove fd).1 = handles := congrArg Prod.fst removed
  subst rest
  split
  next absent => exact .closed held (.absent absent)
  next info found =>
  split
  · trivial
  next counted =>
  split
  next unused => exact .closed held (.dropped found counted unused)
  next used => exact .closed held (.counted found counted used)

theorem unlinkat_effect :
    Effects this ctx (.unlinkat dirfd path flags) (this.unlinkat dirfd path flags ctx) := by
  rw [unlinkat]
  split
  · exact fail_effect nofun
  · split
    · exact fail_effect nofun
    · exact removeDentry_effect .unlinkat

theorem stdFsFchown_effect {arg credentials} : Effects this ctx
    (.stdFsFchown fd arg credentials) (this.stdFsFchown fd arg credentials ctx) := by
  unfold stdFsFchown
  split
  · exact fail_effect nofun
  split
  · exact fail_effect nofun
  · exact .changed .stdFsFchown

theorem step_effect {after output}
    (stepped : ramfs.step this ⟨request, ctx⟩ = some (after, output)) :
    Effect this ctx request output after := by
  cases request with
  | schemeRoot =>
    cases stepped
    exact .rooted
  | read fd length offset fcntlFlags =>
    cases stepped
    refine .kept nofun fun fd answered => ?_
    obtain ⟨bytes, _, same⟩ := ok_of_map (Option.some.inj answered)
    cases same
  | openat => exact openat_effect.of_replied stepped
  | unlinkat => exact unlinkat_effect.of_replied stepped
  | removeDentry => exact (removeDentry_effect .removeDentry).of_replied stepped
  | write => exact (onHandle_effect (fun _ => .write) nofun).of_replied stepped
  | ftruncate => exact (onHandle_effect (fun _ => .ftruncate) nofun).of_replied stepped
  | fchmod => exact (onHandle_effect (fun _ => .fchmod) nofun).of_replied stepped
  | fchown fd uid gid =>
    cases stepped
    exact .changed .fchown
  | stdFsFchown => exact stdFsFchown_effect.of_replied stepped
  | onClose fd =>
    obtain ⟨_, done, reply⟩ := Option.map_eq_some_iff.mp stepped
    cases reply
    exact onClose_effect.of_eq done

end EosBase.Ramfs
