import EosBase.Chan.Moves
import Mathlib.Data.List.Nodup

/-!
# Who is connected to whom

`Linked` is what holds between the ends of channels while everybody can be told
of events.  Remotes are mutual, a path stands for a listener with that path, and
a client waits in one place of one queue.
-/

namespace EosBase.Chan

open Redox Option View ChanScheme List

@[grind]
def Extra.Waits : Extra → Prop
  | .client own => own.remote = .waiting
  | _ => False

@[grind]
def Extra.Meets (remoteId : Nat) : Extra → Prop
  | .client own => own.remote = .opened remoteId
  | _ => False

@[grind]
def Extra.Called (path : Name) : Extra → Prop
  | .listener own => own.path = some path
  | _ => False

@[grind]
def Extra.queue : Extra → List Nat
  | .listener own => own.awaiting
  | _ => []

variable {path : Name} {property : Extra → Prop} {extra : Extra} {id : Nat} {this : View}
  {remoteId : Nat} {listener : Listener} {skipped rest : List Nat} {client : Client} {event : Event}
  {other : Nat}

namespace View

def Holds (this : View) (property : Extra → Prop) (id : Nat) : Prop :=
  ∃ extra, this.extras id = some extra ∧ property extra

def queue (this : View) (id : Nat) : List Nat :=
  ((this.extras id).map Extra.queue).getD []

@[grind =]
theorem holds_set : (this.set id extra).Holds property other ↔
    if other = id then property extra else this.Holds property other := by
  unfold Holds
  rw [extras_set]
  split <;> simp

@[grind =]
theorem holds_add : (this.add extra).Holds property other ↔
    if other = this.next then property extra else this.Holds property other := by
  unfold Holds
  rw [extras_add]
  split <;> simp

@[grind =]
theorem holds_remove : (this.remove id).Holds property other ↔
    other ≠ id ∧ this.Holds property other := by
  unfold Holds
  rw [extras_remove]
  split <;> simp [*]

@[grind =]
theorem holds_call {number} :
    (this.call path number).Holds property other ↔ this.Holds property other :=
  Iff.rfl

theorem holds_of_extras (found : this.extras id = some extra) (property : Extra → Prop) :
    this.Holds property id ↔ property extra := by
  unfold Holds
  rw [found]
  simp

theorem not_holds_of_none (absent : this.extras id = none) (property : Extra → Prop) :
    ¬ this.Holds property id := by
  rintro ⟨extra, found, _⟩
  exact some_ne_none extra (found.symm.trans absent)

@[grind =]
theorem queue_set : (this.set id extra).queue other =
    if other = id then extra.queue else this.queue other := by
  unfold queue
  rw [extras_set]
  split <;> rfl

@[grind =]
theorem queue_add : (this.add extra).queue other =
    if other = this.next then extra.queue else this.queue other := by
  unfold queue
  rw [extras_add]
  split <;> rfl

@[grind =]
theorem queue_remove : (this.remove id).queue other =
    if other = id then [] else this.queue other := by
  unfold queue
  rw [extras_remove]
  split <;> rfl

@[grind =]
theorem queue_call {number} : (this.call path number).queue other = this.queue other :=
  rfl

theorem queue_of_extras (found : this.extras id = some extra) : this.queue id = extra.queue := by
  rw [queue, found]
  rfl

theorem queue_of_none (absent : this.extras id = none) : this.queue id = [] := by
  rw [queue, absent]
  rfl

end View

theorem Pops.member (pops : Pops this id listener skipped remoteId rest) :
    remoteId ∈ this.queue id := by
  rw [queue_of_extras pops.listens]
  change remoteId ∈ listener.awaiting
  rw [pops.queue]
  exact mem_append_right _ mem_cons_self

structure Linked (this : View) : Prop where
  below : ∀ id, this.next ≤ id → this.extras id = none
  back : ∀ id remoteId, this.Holds (Extra.Meets remoteId) id → this.Holds (Extra.Meets id) remoteId
  distinct : ∀ id, ¬ this.Holds (Extra.Meets id) id
  named : ∀ path id, this.named path = some id → this.Holds (Extra.Called path) id
  queued : ∀ id other, other ∈ this.queue id →
    other < this.next ∧ (this.extras other = none ∨ this.Holds Extra.Waits other)
  once : ∀ id, (this.queue id).Nodup
  apart : ∀ id other waiting, waiting ∈ this.queue id → waiting ∈ this.queue other → id = other

namespace Linked

section

variable (linked : Linked this)

include linked

theorem lt_next (found : this.extras id = some extra) : id < this.next := by
  by_contra late
  cases found.symm.trans (linked.below id (Nat.le_of_not_lt late))

theorem setClient {changed} (found : this.extras id = some (.client client))
    (same : changed.remote = client.remote) : Linked (this.set id (.client changed)) := by
  have holds := holds_of_extras found
  cases linked
  constructor <;> grind

section

variable (found : this.extras id = some (.listener listener))

include found

theorem setQueue {changed}
    (same : changed.path = listener.path) (shorter : changed.awaiting.Sublist listener.awaiting) :
    Linked (this.set id (.listener changed)) := by
  have holds := holds_of_extras found
  have queue := queue_of_extras found
  cases linked
  constructor <;> grind

theorem connects :
    Linked ((this.set id (.listener (listener.enqueue this.next))).add (.client .default)) := by
  have absent := linked.below this.next le_rfl
  have unused := not_holds_of_none absent
  have holds := holds_of_extras found
  have queue := queue_of_extras found
  have longer : (listener.enqueue this.next).awaiting = listener.awaiting ++ [this.next] := rfl
  have same : (listener.enqueue this.next).path = listener.path := rfl
  cases linked
  constructor <;> grind [Client.default]

end

theorem hooks (found : this.extras id = some (.client client)) (waiting : client.remote = .waiting)
    (unqueued : ∀ other, id ∉ this.queue other) :
    Linked ((this.set id (.client { client with remote := .opened this.next })).add
      (.client { Client.default with remote := .opened id })) := by
  have absent := linked.below this.next le_rfl
  have unused := not_holds_of_none absent
  have holds := holds_of_extras found
  cases linked
  constructor <;> grind

section

variable (pops : Pops this id listener skipped remoteId rest)

include pops

section

variable (found : this.extras remoteId = some (.client client))

include found

theorem popped_waits : client.remote = .waiting := by
  rcases (linked.queued id remoteId pops.member).2 with absent | waits
  · cases found.symm.trans absent
  · exact (holds_of_extras found _).mp waits

theorem accepts :
    Linked (((this.set id (.listener ⟨listener.path, rest⟩)).set remoteId
      (.client { client with remote := .opened this.next })).add
        (.client { Client.default with remote := .opened remoteId })) := by
  have queue : this.queue id = skipped ++ remoteId :: rest :=
    (queue_of_extras pops.listens).trans pops.queue
  have member := pops.member
  have waits := linked.popped_waits pops found
  have popped : Linked (this.set id (.listener ⟨listener.path, rest⟩)) := by
    refine linked.setQueue pops.listens rfl ?_
    rw [pops.queue]
    exact (sublist_cons_self _ _).trans (sublist_append_right _ _)
  have different : remoteId ≠ id := by
    rintro rfl
    cases pops.listens.symm.trans found
  have still : (this.set id (.listener ⟨listener.path, rest⟩)).extras remoteId =
      some (.client client) := by
    rw [extras_set, if_neg different]
    exact found
  have gone : ∀ other, remoteId ∉ (this.set id (.listener ⟨listener.path, rest⟩)).queue other := by
    intro other again
    rw [queue_set] at again
    split at again
    next here =>
      have distinct := linked.once id
      rw [queue] at distinct
      exact (nodup_cons.mp (nodup_append.mp distinct).2.1).1 again
    next elsewhere => exact elsewhere (linked.apart _ _ _ again member)
  exact popped.hooks still waits gone

end

end

theorem parts {remote} (found : this.extras id = some (.client client))
    (opened : client.remote = .opened remoteId)
    (present : this.extras remoteId = some (.client remote)) :
    Linked ((this.remove id).set remoteId (.client { remote with remote := .closed })) := by
  have holds := holds_of_extras found
  have theirs := holds_of_extras present
  have meets : remote.remote = .opened id :=
    (theirs _).mp (linked.back id remoteId ((holds _).mpr opened))
  cases linked
  constructor <;> grind

theorem leaves (found : this.extras id = some extra) (alone : ∀ remoteId, ¬ extra.Meets remoteId)
    (nameless : ∀ path, ¬ extra.Called path) : Linked (this.remove id) := by
  have holds := holds_of_extras found
  cases linked
  constructor <;> grind

theorem unnamed (found : this.extras id = some (.listener listener))
    (called : listener.path = some path) : Linked ((this.remove id).call path none) := by
  have holds := holds_of_extras found
  cases linked
  constructor <;> grind

theorem move {output after}
    (posted : event.posted = none) (move : Move this event output after) : Linked after := by
  cases move with
  | refused | flagged | ended => exact linked
  | rooted | listens =>
    have absent := linked.below this.next le_rfl
    have unused := not_holds_of_none absent
    cases linked
    constructor <;> grind
  | named =>
    have absent := linked.below this.next le_rfl
    have unused := not_holds_of_none absent
    cases linked
    constructor <;> grind
  | connects _ found => exact linked.connects found
  | unannounced _ failed | dropped _ failed | unsaid failed => exact absurd posted failed
  | drained _ found => exact linked.setQueue found rfl (nil_sublist _)
  | accepts _ pops found => exact linked.accepts pops found
  | popped _ pops =>
    refine linked.setQueue pops.listens rfl ?_
    rw [pops.queue]
    exact (sublist_cons_self _ _).trans (sublist_append_right _ _)
  | writes _ _ present => exact linked.setClient present rfl
  | reads found => exact linked.setClient found rfl
  | parts found opened _ present => exact linked.parts found opened present
  | leaves found unopened => exact linked.leaves found unopened (fun _ => id)
  | unlistens found nameless =>
    refine linked.leaves found (fun _ => id) ?_
    intro path called
    cases nameless.symm.trans called
  | unnamed found called => exact linked.unnamed found called
  | unrooted found => exact linked.leaves found (fun _ => id) (fun _ => id)

end

theorem start : Linked chan.start.view := by
  have absent : ∀ id, chan.start.view.extras id = none := fun _ => rfl
  have unused : ∀ (property : Extra → Prop) id, ¬ chan.start.view.Holds property id :=
    fun _ id => not_holds_of_none (absent id) _
  have nobody : ∀ id, chan.start.view.queue id = [] := fun _ => rfl
  have nameless : ∀ path, chan.start.view.named path = none := fun _ => rfl
  constructor <;> grind

end Linked

/-- Everybody can be told of events, and only handles that are open are closed. -/
def Served (this : ChanScheme) (event : Event) : Prop :=
  event.posted = none ∧
    match event.request with
    | .close id => (this.handles.get? id).isSome = true
    | _ => True

instance (this : ChanScheme) (event : Event) : Decidable (Served this event) := by
  unfold Served
  split <;> infer_instance

variable {this : ChanScheme} {handle : Handle} {posted : Option Errno} {flags : Nat}

theorem linked_reachable (reached : chan.ReachableWhile Served this) :
    Linked this.view := by
  apply reached.invariant (motive := fun this => Linked this.view) Linked.start
  intro before event after output _ linked served stepped
  exact linked.move served.1 (step_move stepped)

namespace ChanScheme

theorem handle_of_holds (holds : this.view.Holds property id) :
    ∃ handle, this.handles.get? id = some handle ∧ property handle.extra := by
  obtain ⟨extra, found, good⟩ := holds
  obtain ⟨handle, present, rfl⟩ := handle_of_extras found
  exact ⟨handle, present, good⟩

theorem holds_of_handle (found : this.handles.get? id = some handle)
    (good : property handle.extra) : this.view.Holds property id :=
  (holds_of_extras (extras_of_handle found) _).mpr good

theorem connected_total {new} : this.connected posted new ≠ none := by
  cases posted with
  | none | some => nofun

section

variable (linked : Linked this.view)

include linked

theorem openPath_total : this.openPath path flags posted ≠ none := by
  unfold openPath
  dsimp only
  split
  · rintro ⟨⟩
  split
  · rintro ⟨⟩
  split
  · rintro ⟨⟩
  next listenerId called =>
  obtain ⟨handle, present, _⟩ := handle_of_holds (linked.named path listenerId called)
  rw [present]
  dsimp only
  split
  · rintro ⟨⟩
  · exact connected_total

theorem acceptLoop_total {path}
    (listens : this.view.extras id = some (.listener listener)) {awaiting}
    (queue : ∀ other ∈ awaiting, other ∈ this.view.queue id) :
    this.acceptLoop id handle path posted awaiting ≠ none := by
  induction awaiting with
  | nil => rintro ⟨⟩
  | cons remoteId rest ih =>
    unfold acceptLoop
    dsimp only
    split
    · exact ih fun other member => queue other (mem_cons_of_mem _ member)
    next remote found =>
    split
    · exact connected_total
    next another isListener =>
      have present := extras_of_handle found
      rw [extras_popped, isListener] at present
      have awaited := linked.queued id remoteId (queue remoteId mem_cons_self)
      have different : remoteId ≠ id := by
        rintro rfl
        rcases awaited.2 with absent | waits
        · cases listens.symm.trans absent
        · exact (holds_of_extras listens _).mp waits
      rw [if_neg different] at present
      rcases awaited.2 with absent | waits
      · cases present.symm.trans absent
      · exact ((holds_of_extras present _).mp waits).elim
    · rintro ⟨⟩

theorem dup_total {buf utf8} : this.dup id buf utf8 posted ≠ none := by
  unfold dup
  split
  · unfold dupListen
    split
    · nofun
    next handle found =>
    split
    · nofun
    next listener isListener =>
    have listens : this.view.extras id = some (.listener listener) := by
      rw [extras_of_handle found, requireListener_ok isListener]
    refine acceptLoop_total linked listens ?_
    rw [queue_of_extras listens]
    exact fun _ member => member
  · split
    · unfold dupConnect
      split
      · nofun
      · split
        · nofun
        · exact connected_total
    · unfold dupName
      split
      · nofun
      split
      · nofun
      split
      · nofun
      · split
        · nofun
        · exact openPath_total linked

theorem remote_of_opened (found : this.handles.get? id = some handle)
    (isClient : handle.extra = .client client) (opened : client.remote = .opened remoteId) :
    remoteId ≠ id ∧ ∃ remote other, this.handles.get? remoteId = some remote ∧
      remote.extra = .client other := by
  have meets : this.view.Holds (Extra.Meets remoteId) id := by
    refine holds_of_handle found ?_
    rw [isClient]
    exact opened
  constructor
  · rintro rfl
    exact linked.distinct _ meets
  · obtain ⟨⟨_, extra, _⟩, present, met⟩ := handle_of_holds (linked.back id remoteId meets)
    cases extra with
    | client other => exact ⟨_, other, present, rfl⟩
    | listener | schemeRoot => exact met.elim

theorem write_total {buf} : this.write id buf flags posted ≠ none := by
  unfold write
  split
  · nofun
  next handle found =>
  split
  · nofun
  next client isClient =>
  split
  next remoteId opened =>
    obtain ⟨_, remote, other, present, isOther⟩ :=
      remote_of_opened linked found (requireClient_ok isClient) opened
    rw [present]
    dsimp only
    rw [isOther]
    dsimp only
    split
    · split <;> nofun
    · nofun
  · nofun
  · nofun

end

theorem read_total {length} : this.read id length flags ≠ none := by
  unfold read
  split
  · nofun
  split
  · nofun
  · split
    · nofun
    · split <;> nofun

theorem onClose_total (linked : Linked this.view)
    (opened : (this.handles.get? id).isSome = true) : this.onClose id none ≠ none := by
  unfold onClose
  split
  next absent =>
    rw [absent] at opened
    cases opened
  next handle found =>
  dsimp only
  split
  next client isClient =>
    split
    next remoteId opened =>
      obtain ⟨different, remote, other, present, isOther⟩ :=
        remote_of_opened linked found isClient opened
      rw [Table.get?_erase, if_neg different, present]
      dsimp only
      rw [isOther]
      simp
    · nofun
  · split <;> nofun
  · nofun

end ChanScheme

theorem step_total (linked : Linked this.view)
    (served : Served this event) : chan.step this event ≠ none := by
  obtain ⟨request, posted⟩ := event
  obtain ⟨rfl, opened⟩ := served
  cases request with
  | schemeRoot => nofun
  | openat dirfd path flags =>
    refine mt map_eq_none_iff.mp ?_
    unfold openat
    split
    · nofun
    · split
      · exact openPath_total linked
      · nofun
  | dup id buf utf8 => exact mt map_eq_none_iff.mp (dup_total linked)
  | write id buf flags => exact mt map_eq_none_iff.mp (write_total linked)
  | read id length flags => exact mt map_eq_none_iff.mp read_total
  | setFlags id arg =>
    refine mt map_eq_none_iff.mp ?_
    unfold setFlags
    split <;> nofun
  | close id =>
    exact mt map_eq_none_iff.mp (onClose_total linked opened)

end EosBase.Chan
