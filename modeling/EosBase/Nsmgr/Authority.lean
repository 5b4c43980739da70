import EosBase.Nsmgr.Fork

/-!
# Authority over namespaces

A handle is made by a request on another handle.  What it may do is bounded by
what that handle could do, a fork never passes on the right to create schemes,
and a namespace changes only through a handle with the right to change it.
-/

namespace EosBase.Nsmgr

open Redox NamespaceScheme List NsPermission Table

abbrev Occurrence := Transition NamespaceScheme Event (Except Errno Reply)

inductive Derivation where
  | fork
  | shrink
  | issue
  | list
  deriving DecidableEq, Repr

def NsDup.derivation : NsDup → Derivation
  | .forkNs => .fork
  | .shrinkPermissions => .shrink
  | .issueRegister => .issue

/-- The kind of handle that a request asks for, and the handle that it is made on. -/
def Event.derivation (crates : Crates) : Event → Option (Derivation × Nat)
  | .openat fd path _ =>
    match crates.asParts path with
    | some ([], _) => some (.list, fd)
    | _ => none
  | .dup id buf =>
    match readNum buf with
    | .ok rawKind => (crates.tryFromRaw rawKind).map fun kind => (kind.derivation, id)
    | .error _ => none
  | _ => none

def created (occurrence : Occurrence) : Option Nat :=
  match occurrence.output with
  | some (.ok (.thisScheme number)) => some number
  | _ => none

inductive Derives (source : NamespaceAccess) : Derivation → Handle → Prop where
  | shrink (mask : NsPermissions) :
      Derives source .shrink (.access { source with permission := source.permission ∩ mask })
  | list : Derives source .list (.list source)
  | issue (name : Name) (granted : insert ∈ source.permission) :
      Derives source .issue (.register ⟨source.namespace_, name⟩)

inductive Effect (crates : Crates) (this : NamespaceScheme) (event : Event) :
    NamespaceScheme → Option (Except Errno Reply) → Prop where
  | nothing {output} (silent : ∀ number, output ≠ some (.ok (.thisScheme number)))
      (open_ : ∀ id, event ≠ .onClose id) :
      Effect crates this event this output
  | closed {id} (asked : event = .onClose id) : Effect crates this event (this.onClose id) none
  | derived {kind parent source handle}
      (asked : event.derivation crates = some (kind, parent))
      (held : this.handles.get? parent = some (.access source))
      (derives : Derives source kind handle) :
      Effect crates this event (this.addHandle handle) (some (.ok (.thisScheme this.nextId)))
  | forked {parent buf source original copy}
      (asked : event = .dup parent buf)
      (kind : event.derivation crates = some (.fork, parent))
      (held : this.handles.get? parent = some (.access source))
      (found : this.namespaces[source.namespace_]? = some original)
      (copied : original.fork crates (buf.drop wordSize) = .ok copy) :
      Effect crates this event (this.addNamespace copy (Finset.univ \ highPermissions))
        (some (.ok (.thisScheme this.nextId)))
  | registered {id numFds obtained cap fd original}
      (asked : event = .onSendfd id numFds obtained)
      (held : this.handles.get? id = some (.register cap))
      (found : this.namespaces[cap.targetNamespace]? = some original) :
      Effect crates this event
        (this.setNamespace cap.targetNamespace ⟨original.schemes.insert cap.schemeName fd⟩)
        (some (.ok (.sent numFds)))
  | removed {fd path answer source scheme original}
      (asked : event = .unlinkat fd path answer)
      (held : this.handles.get? fd = some (.access source))
      (granted : delete ∈ source.permission)
      (found : this.namespaces[source.namespace_]? = some original) :
      Effect crates this event
        (this.setNamespace source.namespace_ ⟨original.schemes.erase scheme⟩)
        (some (.ok .unlinked))

variable {position id : Nat} {crates : Crates} {this after : NamespaceScheme}

section Handlers

variable {reply : Reply}

theorem getNsAccess_ok {source}
    (found : this.getNsAccess id = some source) : this.handles.get? id = some (.access source) := by
  unfold getNsAccess at found
  split at found
  next access held =>
    cases found
    exact held
  · cases found

theorem borrow_ok {found}
    (done : this.borrow position = .ok found) : this.namespaces[position]? = some found := by
  unfold borrow at done
  split at done
  next held =>
    cases done
    exact held
  · cases done

theorem openat_effect {path fd answer}
    (done : this.openat crates fd path answer = .ok (after, reply)) :
    Effect crates this (.openat fd path answer) after (some (.ok reply)) := by
  obtain ⟨source, access, rest⟩ := ok_of_bind done
  have held := getNsAccess_ok (orErrno_ok access)
  obtain ⟨⟨scheme, reference⟩, parsed, chosen⟩ := ok_of_bind rest
  have parts := orErrno_ok parsed
  dsimp only at chosen
  split at chosen
  · obtain ⟨resFd, _, finished⟩ := ok_of_bind chosen
    cases finished
    exact .nothing (by simp) (by simp)
  split at chosen
  next root =>
    subst root
    split at chosen
    · cases chosen
      exact .derived (by simp only [Event.derivation, parts]) held .list
    · cases chosen
  · obtain ⟨ns, _, opening⟩ := ok_of_bind chosen
    obtain ⟨resFd, _, finished⟩ := ok_of_bind opening
    cases finished
    exact .nothing (by simp) (by simp)

theorem dup_effect {buf} (done : this.dup crates id buf = .ok (after, reply)) :
    Effect crates this (.dup id buf) after (some (.ok reply)) := by
  obtain ⟨source, access, rest⟩ := ok_of_bind done
  have held := getNsAccess_ok (orErrno_ok access)
  obtain ⟨rawKind, read, kinding⟩ := ok_of_bind rest
  obtain ⟨kind, known, making⟩ := ok_of_bind kinding
  obtain ⟨⟨made, newId⟩, result, finished⟩ := ok_of_bind making
  cases finished
  have asked : Event.derivation crates (.dup id buf) = some (kind.derivation, id) := by
    simp only [Event.derivation, read, orErrno_ok known, Option.map_some]
  cases kind with
  | forkNs =>
    obtain ⟨original, borrowed, forking⟩ := ok_of_bind result
    obtain ⟨copy, copied, ended⟩ := ok_of_bind forking
    cases ended
    exact .forked rfl asked held (borrow_ok borrowed) copied
  | shrinkPermissions =>
    obtain ⟨bits, _, ended⟩ := ok_of_bind result
    cases ended
    exact .derived asked held (.shrink _)
  | issueRegister =>
    unfold dupKind issueRegister at result
    dsimp only at result
    split at result
    · obtain ⟨name, _, granting⟩ := ok_of_bind result
      split at granting
      next granted =>
        cases granting
        exact .derived asked held (.issue _ granted)
      · cases granting
    · cases result

theorem unlinkat_effect {path fd answer}
    (done : this.unlinkat crates fd path answer = .ok (after, reply)) :
    Effect crates this (.unlinkat fd path answer) after (some (.ok reply)) := by
  obtain ⟨source, access, rest⟩ := ok_of_bind done
  obtain ⟨original, borrowed, parsing⟩ := ok_of_bind rest
  obtain ⟨⟨scheme, reference⟩, _, chosen⟩ := ok_of_bind parsing
  dsimp only at chosen
  split at chosen
  · split at chosen
    next granted =>
      obtain ⟨_, _, finished⟩ := ok_of_bind chosen
      cases finished
      exact .removed rfl (getNsAccess_ok (orErrno_ok access)) granted (borrow_ok borrowed)
    · cases chosen
  · obtain ⟨_, _, asking⟩ := ok_of_bind chosen
    obtain ⟨_, _, finished⟩ := ok_of_bind asking
    cases finished
    exact .nothing (by simp) (by simp)

theorem onSendfd_effect {numFds obtained}
    (done : this.onSendfd id numFds obtained = .ok (after, reply)) :
    Effect crates this (.onSendfd id numFds obtained) after (some (.ok reply)) := by
  unfold onSendfd at done
  split at done
  · cases done
  next cap held =>
    split at done
    · cases done
      exact .nothing (by simp) (by simp)
    split at done
    · cases done
    obtain ⟨newFd, _, registering⟩ := ok_of_bind done
    obtain ⟨changed, registered, finished⟩ := ok_of_bind registering
    cases finished
    obtain ⟨original, borrowed, inserting⟩ := ok_of_bind registered
    split at inserting
    · cases inserting
    · cases inserting
      exact .registered rfl held (borrow_ok borrowed)
  · cases done

end Handlers

variable {event : Event} {output : Option (Except Errno Reply)}

theorem step_effect (stepped : step crates this event = some (after, output)) :
    Effect crates this event after output := by
  unfold step at stepped
  split at stepped
  next next reply handled =>
    cases stepped
    cases event with
    | openat fd path answer =>
      obtain ⟨⟨made, answered⟩, done, same⟩ := ok_of_map handled
      cases same
      exact openat_effect done
    | dup id buf =>
      obtain ⟨⟨made, answered⟩, done, same⟩ := ok_of_map handled
      cases same
      exact dup_effect done
    | unlinkat fd path answer =>
      obtain ⟨⟨made, answered⟩, done, same⟩ := ok_of_map handled
      cases same
      exact unlinkat_effect done
    | onClose id =>
      cases handled
      exact .closed rfl
    | onSendfd id numFds obtained =>
      obtain ⟨⟨made, answered⟩, done, same⟩ := ok_of_map handled
      cases same
      exact onSendfd_effect done
  next error failed =>
    cases stepped
    refine .nothing (by simp) ?_
    rintro id rfl
    cases failed
  · cases stepped

def Untouched (history : List Occurrence) (id : Nat) : Prop :=
  ∀ occurrence ∈ history, created occurrence ≠ some id ∧ occurrence.event ≠ .onClose id

def MadeBy (history : List Occurrence) (id : Nat) (earlier : List Occurrence)
    (occurrence : Occurrence) : Prop :=
  ∃ later, history = earlier ++ occurrence :: later ∧ created occurrence = some id ∧
    Untouched later id

theorem Untouched.snoc {last history} (untouched : Untouched history id)
    (other : created last ≠ some id)
    (kept : last.event ≠ .onClose id) : Untouched (history ++ [last]) id := by
  intro occurrence member
  rcases mem_append.mp member with before | added
  · exact untouched occurrence before
  · rw [mem_singleton.mp added]
    exact ⟨other, kept⟩

namespace MadeBy

variable {history earlier : List Occurrence} {occurrence : Occurrence}

theorem now (made : created occurrence = some id) :
    MadeBy (history ++ [occurrence]) id history occurrence :=
  ⟨[], rfl, made, fun _ member => absurd member not_mem_nil⟩

theorem snoc {last} (madeBy : MadeBy history id earlier occurrence) (other : created last ≠ some id)
    (kept : last.event ≠ .onClose id) :
    MadeBy (history ++ [last]) id earlier occurrence := by
  obtain ⟨later, rfl, made, untouched⟩ := madeBy
  refine ⟨later ++ [last], ?_, made, untouched.snoc other kept⟩
  rw [append_assoc, cons_append]

theorem unique {earlier' occurrence'} (first : MadeBy history id earlier occurrence)
    (second : MadeBy history id earlier' occurrence') :
    earlier = earlier' ∧ occurrence = occurrence' := by
  obtain ⟨later, rfl, made, untouched⟩ := first
  obtain ⟨later', same, made', untouched'⟩ := second
  rcases append_eq_append_iff.mp same with ⟨middle, longer, rest⟩ | ⟨middle, longer, rest⟩
  · cases middle with
    | nil =>
      cases rest
      rw [append_nil] at longer
      exact ⟨longer.symm, rfl⟩
    | cons head tail =>
      cases rest
      exact absurd made' (untouched occurrence' (by simp)).1
  · cases middle with
    | nil =>
      cases rest
      rw [append_nil] at longer
      exact ⟨longer, rfl⟩
    | cons head tail =>
      cases rest
      exact absurd made (untouched' occurrence (by simp)).1

theorem touched (madeBy : MadeBy history id earlier occurrence) : ¬ Untouched history id := by
  obtain ⟨later, rfl, made, _⟩ := madeBy
  intro untouched
  exact (untouched occurrence (by simp)).1 made

end MadeBy

/-- How many forks lie between the first handle and the one with the number. -/
inductive Lineage (crates : Crates) : List Occurrence → Nat → Nat → Prop where
  | root {history} : Untouched history 0 → Lineage crates history 0 0
  | derived {history earlier id parent occurrence kind forks} :
      MadeBy history id earlier occurrence →
      occurrence.event.derivation crates = some (kind, parent) → kind ≠ .fork →
      Lineage crates earlier parent forks → Lineage crates history id forks
  | forked {history earlier id parent occurrence forks} :
      MadeBy history id earlier occurrence →
      occurrence.event.derivation crates = some (.fork, parent) →
      Lineage crates earlier parent forks → Lineage crates history id (forks + 1)

theorem Lineage.unique {history forks} (lineage : Lineage crates history id forks) :
    ∀ {others : Nat}, Lineage crates history id others → others = forks := by
  induction lineage with
  | root untouched =>
    intro others other
    cases other with
    | root _ => rfl
    | derived made | forked made => exact absurd untouched made.touched
  | derived made asked plain _ ih =>
    intro others other
    cases other with
    | root untouched => exact absurd untouched made.touched
    | derived made' asked' _ earlier =>
      obtain ⟨rfl, rfl⟩ := made.unique made'
      cases asked.symm.trans asked'
      exact ih earlier
    | forked made' asked' _ =>
      obtain ⟨rfl, rfl⟩ := made.unique made'
      cases asked.symm.trans asked'
      exact absurd rfl plain
  | forked made asked _ ih =>
    intro others other
    cases other with
    | root untouched => exact absurd untouched made.touched
    | derived made' asked' plain _ =>
      obtain ⟨rfl, rfl⟩ := made.unique made'
      cases asked.symm.trans asked'
      exact absurd rfl plain
    | forked made' asked' earlier =>
      obtain ⟨rfl, rfl⟩ := made.unique made'
      cases asked.symm.trans asked'
      rw [ih earlier]

inductive Account (crates : Crates) : List Occurrence → Nat → Handle → Prop where
  | root {history} : Untouched history 0 →
      Account crates history 0 (.access ⟨0, Finset.univ⟩)
  | derived {history earlier id parent occurrence kind source handle} :
      MadeBy history id earlier occurrence →
      occurrence.event.derivation crates = some (kind, parent) →
      occurrence.before.handles.get? parent = some (.access source) →
      Derives source kind handle → Account crates earlier parent (.access source) →
      Account crates history id handle
  | forked {history earlier id parent occurrence source position} :
      MadeBy history id earlier occurrence →
      occurrence.event.derivation crates = some (.fork, parent) →
      Account crates earlier parent (.access source) →
      Account crates history id (.access ⟨position, Finset.univ \ highPermissions⟩)

variable {handle : Handle}

theorem Account.snoc {last history} (account : Account crates history id handle)
    (other : created last ≠ some id) (kept : last.event ≠ .onClose id) :
    Account crates (history ++ [last]) id handle := by
  cases account with
  | root untouched => exact .root (untouched.snoc other kept)
  | derived made asked held derives earlier =>
    exact .derived (made.snoc other kept) asked held derives earlier
  | forked made asked earlier => exact .forked (made.snoc other kept) asked earlier

def Handle.access? : Handle → Option NamespaceAccess
  | .access inner => some inner
  | .list inner => some inner
  | .register _ => none

theorem Account.lineage {history} (account : Account crates history id handle) :
    ∃ forks, Lineage crates history id forks ∧
      ∀ access, handle.access? = some access → .schemeCreate ∈ access.permission → forks = 0 := by
  induction account with
  | root untouched => exact ⟨0, .root untouched, fun _ _ _ => rfl⟩
  | @derived history earlier id parent occurrence kind source handle made asked _ derives _
      ih =>
      obtain ⟨forks, lineage, root⟩ := ih
      have plain : kind ≠ .fork := by
        cases derives <;> simp
      refine ⟨forks, .derived made asked plain lineage, ?_⟩
      intro access carried creating
      apply root source rfl
      cases derives with
      | shrink mask =>
        cases carried
        exact (Finset.mem_inter.mp creating).1
      | list =>
        cases carried
        exact creating
      | issue name granted => cases carried
  | forked made asked _ ih =>
    obtain ⟨forks, lineage, _⟩ := ih
    refine ⟨forks + 1, .forked made asked lineage, ?_⟩
    intro access carried creating
    cases carried
    have high : schemeCreate ∉ Finset.univ \ highPermissions := by decide
    exact absurd creating high

theorem run_accounts {schemes cap history state}
    (run : (nsmgr crates schemes cap).Run (fun _ _ => True) history state) :
    ∀ id handle, state.handles.get? id = some handle → Account crates history id handle := by
  induction run with
  | start =>
    intro id handle found
    rcases of_insert found with ⟨rfl, rfl⟩ | ⟨_, found⟩
    · exact .root fun _ member => absurd member not_mem_nil
    · cases found
  | @step history before event output after _ _ stepped ih =>
    intro id handle found
    have effect := step_effect (show step crates before event = some (after, output) from stepped)
    -- A new handle takes the next number; every other one is as it was.
    have adding : ∀ {new : Handle} {more : List Namespace},
        output = some (.ok (.thisScheme before.nextId)) →
        (∀ other, event ≠ .onClose other) →
        Account crates (history ++ [⟨before, event, output, after⟩]) before.nextId new →
        (addHandle { before with namespaces := more } new).handles.get? id =
          some handle →
        Account crates (history ++ [⟨before, event, output, after⟩]) id handle := by
      intro new more answered open_ account present
      rcases of_insert present with ⟨rfl, rfl⟩ | ⟨different, present⟩
      · exact account
      apply (ih id handle present).snoc
      · simp only [created, answered, ne_eq, Option.some.injEq]
        exact fun same => different same.symm
      · exact open_ id
    have opens : ∀ {kind parent}, event.derivation crates = some (kind, parent) →
        ∀ other, event ≠ .onClose other := by
      intro kind parent asked other same
      rw [same] at asked
      cases asked
    cases effect with
    | nothing silent open_ =>
      apply (ih id handle found).snoc _ (open_ id)
      intro made
      unfold created at made
      split at made
      next number answered => exact silent number answered
      · cases made
    | closed asked =>
      subst asked
      obtain ⟨different, found⟩ := of_erase found
      apply (ih id handle found).snoc
      · simp [created]
      · intro same
        cases same
        exact different rfl
    | derived asked held derives =>
      refine adding rfl (opens asked) ?_ found
      exact .derived (.now rfl) asked held derives (ih _ _ held)
    | forked _ kind held _ _ =>
      refine adding rfl (opens kind) ?_ found
      exact .forked (.now rfl) kind (ih _ _ held)
    | registered asked | removed asked =>
      apply (ih id handle found).snoc
      · simp [created]
      · rw [asked]
        exact fun same => by cases same

/-- A step that sent a descriptor to a register handle, which was issued by a
handle on the namespace that may insert into it. -/
def Registers (crates : Crates) (earlier : List Occurrence) (occurrence : Occurrence)
    (position : Nat) : Prop :=
  ∃ id numFds obtained cap, occurrence.event = .onSendfd id numFds obtained ∧
    occurrence.before.handles.get? id = some (.register cap) ∧
    cap.targetNamespace = position ∧
    ∃ before issue parent source, MadeBy earlier id before issue ∧
      issue.event.derivation crates = some (.issue, parent) ∧
      issue.before.handles.get? parent = some (.access source) ∧
      source.namespace_ = position ∧ .insert ∈ source.permission

def Removes (occurrence : Occurrence) (position : Nat) : Prop :=
  ∃ fd path answer source, occurrence.event = .unlinkat fd path answer ∧
    occurrence.before.handles.get? fd = some (.access source) ∧
    source.namespace_ = position ∧ .delete ∈ source.permission

/-- A step that made a new namespace with the listed part of its parent. -/
def ForksFrom (occurrence : Occurrence) (parent id : Nat) : Prop :=
  ∃ buf names source original copy permission,
    occurrence.event = .dup parent buf ∧ buf.drop wordSize = encodeNames names ∧
    occurrence.before.handles.get? parent = some (.access source) ∧
    occurrence.before.namespaces[source.namespace_]? = some original ∧
    occurrence.after.handles.get? id =
      some (.access ⟨occurrence.before.namespaces.length, permission⟩) ∧
    occurrence.after.namespaces = occurrence.before.namespaces ++ [copy] ∧
    ∀ name fd, copy.schemes.get? name = some fd ↔
      original.schemes.get? name = some fd ∧ ∃ listed ∈ names, Covers listed name

def Changes (occurrence : Occurrence) (position : Nat) : Prop :=
  position < occurrence.before.namespaces.length ∧
    occurrence.after.namespaces[position]? ≠ occurrence.before.namespaces[position]?

structure Confined (crates : Crates) (history : List Occurrence) (state : NamespaceScheme) :
    Prop where
  attenuated : ∀ {id handle access earlier occurrence kind parent},
    state.handles.get? id = some handle → handle.access? = some access →
    MadeBy history id earlier occurrence →
    occurrence.event.derivation crates = some (kind, parent) → kind = .shrink ∨ kind = .list →
    ∃ source, occurrence.before.handles.get? parent = some (.access source) ∧
      access.namespace_ = source.namespace_ ∧ access.permission ⊆ source.permission
  traced : ∀ {id handle access}, state.handles.get? id = some handle →
    handle.access? = some access → ∃ forks, Lineage crates history id forks
  creating : ∀ {id handle access forks}, state.handles.get? id = some handle →
    handle.access? = some access → .schemeCreate ∈ access.permission →
    Lineage crates history id forks → forks = 0
  changed : ∀ {earlier occurrence later position}, history = earlier ++ occurrence :: later →
    Changes occurrence position →
    Registers crates earlier occurrence position ∨ Removes occurrence position
  forked : ∀ {occurrence parent id}, occurrence ∈ history →
    occurrence.event.derivation crates = some (.fork, parent) → created occurrence = some id →
    ForksFrom occurrence parent id
  isolated : ∀ {occurrence position other}, occurrence ∈ history → position ≠ other →
    Changes occurrence position → ¬ Changes occurrence other

theorem setNamespace_changes {target changed}
    (changes : Changes ⟨this, event, output, this.setNamespace target changed⟩ position) :
    target = position := by
  by_contra different
  apply changes.2
  exact getElem?_set_ne different

section

variable (effect : Effect crates this event after output)

include effect

/-- A step changes one namespace at most. -/
theorem Effect.changes (changes : Changes ⟨this, event, output, after⟩ position) :
    (∀ {other}, Changes ⟨this, event, output, after⟩ other → position = other) ∧
    ((∃ id numFds obtained cap, event = .onSendfd id numFds obtained ∧
      this.handles.get? id = some (.register cap) ∧ cap.targetNamespace = position) ∨
    ∃ fd path answer source, event = .unlinkat fd path answer ∧
      this.handles.get? fd = some (.access source) ∧ source.namespace_ = position ∧
      .delete ∈ source.permission) := by
  cases effect with
  | nothing | closed | derived => exact absurd rfl changes.2
  | forked _ _ _ _ _ => exact absurd (getElem?_append_left changes.1) changes.2
  | registered asked held _ =>
    cases setNamespace_changes changes
    exact ⟨setNamespace_changes, .inl ⟨_, _, _, _, asked, held, rfl⟩⟩
  | removed asked held granted _ =>
    cases setNamespace_changes changes
    exact ⟨setNamespace_changes, .inr ⟨_, _, _, _, asked, held, rfl, granted⟩⟩

theorem Effect.forksFrom {parent} (asked : event.derivation crates = some (.fork, parent))
    (made : created ⟨this, event, output, after⟩ = some id) :
    ForksFrom ⟨this, event, output, after⟩ parent id := by
  cases effect with
  | nothing silent _ =>
    unfold created at made
    split at made
    next number answered => exact absurd answered (silent number)
    · cases made
  | closed closing => cases made
  | derived asked' _ derives =>
    cases asked.symm.trans asked'
    cases derives
  | forked request kind held found copied =>
    cases asked.symm.trans kind
    cases made
    obtain ⟨names, encoded, contents⟩ := fork_contains copied
    exact ⟨_, names, _, _, _, _, request, encoded, held, found,
      get?_insert_self _ _ _, rfl, contents⟩
  | registered | removed => cases made

end

/-- Authority over namespaces is confined in every run. -/
theorem authority_confined {crates : Crates} {schemes : Table Name Fd} {cap : Fd}
    {history : List Occurrence} {state : NamespaceScheme}
    (run : (nsmgr crates schemes cap).Run (fun _ _ => True) history state) :
    Confined crates history state where
  attenuated := by
    intro id handle access earlier occurrence kind parent found carried made asked attenuating
    cases run_accounts run id handle found with
    | root untouched => exact absurd untouched made.touched
    | derived made' asked' held derives _ =>
      obtain ⟨rfl, rfl⟩ := made.unique made'
      cases asked.symm.trans asked'
      refine ⟨_, held, ?_⟩
      cases derives with
      | shrink mask =>
        cases carried
        exact ⟨rfl, Finset.inter_subset_left⟩
      | list =>
        cases carried
        exact ⟨rfl, Finset.Subset.refl _⟩
      | issue name granted => cases carried
    | forked made' asked' _ =>
      obtain ⟨rfl, rfl⟩ := made.unique made'
      cases asked.symm.trans asked'
      rcases attenuating with impossible | impossible <;> cases impossible
  traced := by
    intro id handle access found _
    obtain ⟨forks, lineage, _⟩ := (run_accounts run id handle found).lineage
    exact ⟨forks, lineage⟩
  creating := by
    intro id handle access forks found carried granted lineage
    obtain ⟨others, actual, root⟩ := (run_accounts run id handle found).lineage
    rw [actual.unique lineage]
    exact root access carried granted
  changed := by
    intro earlier occurrence later position same changes
    obtain ⟨before, stepped, _⟩ := run.split same
    rcases ((step_effect stepped).changes changes).2 with
      ⟨id, numFds, obtained, register, asked, held, rfl⟩ | removed
    · apply Or.inl
      refine ⟨id, numFds, obtained, register, asked, held, rfl, ?_⟩
      -- The handle that the descriptor was sent to has an account of its own.
      cases run_accounts before id (.register register) held with
      | derived made kind source derives _ =>
        cases derives with
        | issue name granted => exact ⟨_, _, _, _, made, kind, source, rfl, granted⟩
    · exact .inr removed
  forked := by
    intro occurrence parent id member asked made
    obtain ⟨earlier, later, same⟩ := append_of_mem member
    exact (step_effect (run.split same).2.1).forksFrom asked made
  isolated := by
    intro occurrence position other member different first second
    obtain ⟨earlier, later, same⟩ := append_of_mem member
    exact different (((step_effect (run.split same).2.1).changes first).1 second)

/-- Paths are accepted below `/scheme/`. -/
def plainCrates : Crates where
  tryFromRaw raw :=
    if raw = 0 then some .forkNs else if raw = 1 then some .shrinkPermissions
    else if raw = 2 then some .issueRegister else none
  fromBitsTruncate _ := {.list, .insert}
  asParts path :=
    let (scheme, reference) := (path.drop schemeDir.length).span (· ≠ slash)
    if schemeDir <+: path then some (scheme, reference.tail) else none
  redoxScheme name := if slash ∈ name then none else some name
  isUtf8 _ := true

def forkAndShrink : List Event :=
  [.dup 0 (leBytes 8 0 ++ encodeNames [[0x61, star]]), .dup 0 (leBytes 8 1 ++ leBytes 8 3),
    .dup 2 (leBytes 8 2 ++ [0x62]), .onSendfd 3 1 (.ok 7),
    .unlinkat 1 (schemeDir ++ [0x61]) (.ok ())]

theorem authority_confined_fork : ∃ history state, (nsmgr plainCrates (empty.insert [0x61] 5) 9).Run
        (fun _ _ => True) history state ∧
      history.length = 5 ∧ Confined plainCrates history state := by
  have run := (nsmgr plainCrates (empty.insert [0x61] 5) 9).run_replay (fun _ _ => True)
    forkAndShrink (by decide +kernel)
  exact ⟨_, _, run, rfl, authority_confined run⟩

end EosBase.Nsmgr
