import EosBase.Chan.Links

/-!
# Clients that wait

A client that was not accepted yet waits in the queue of a listener.  Closing the
listener drops the queue and tells nobody, so what is said here holds as long as
only listeners are closed that no client waits for.  It does not depend on
whether anybody can be told of events.
-/

namespace EosBase.Chan

open Redox View ChanScheme Handle

def Attended (this : ChanScheme) : Prop :=
  ∀ id handle client, this.handles.get? id = some handle → handle.extra = .client client →
    client.remote = .waiting →
    ∃ listenerId another listener, this.handles.get? listenerId = some another ∧
      another.extra = .listener listener ∧ id ∈ listener.awaiting

def Handle.waits (this : Handle) : Bool :=
  match this.extra with
  | .client client => client.remote == .waiting
  | _ => false

/-- A listener is closed only when no client in its queue still waits. -/
def Patient (this : ChanScheme) (event : Event) : Prop :=
  match event.request with
  | .close id =>
    ((this.handles.get? id).all fun handle =>
      handle.extra.queue.all fun other =>
        !(this.handles.get? other).any waits) = true
  | _ => True

instance (this : ChanScheme) (event : Event) : Decidable (Patient this event) := by
  obtain ⟨request, _⟩ := event
  cases request <;> delta Patient <;> infer_instance

structure Queued (this : View) : Prop where
  below : ∀ id, this.next ≤ id → this.extras id = none
  waits : ∀ id, this.Holds Extra.Waits id → ∃ listenerId, id ∈ this.queue listenerId

variable {this : ChanScheme}

theorem Patient.unawaited {id posted extra}
    (patient : Patient this ⟨.close id, posted⟩) (found : this.view.extras id = some extra) :
    ∀ other ∈ extra.queue, ¬ this.view.Holds Extra.Waits other := by
  intro other member waits
  obtain ⟨handle, present, rfl⟩ := handle_of_extras found
  obtain ⟨client, there, waiting⟩ := handle_of_holds waits
  change ((this.handles.get? id).all _) = true at patient
  rw [present, Option.all_some, List.all_eq_true] at patient
  have checked := patient other member
  rw [there, Option.any_some, Bool.not_eq_true', Handle.waits] at checked
  revert checked waiting
  cases client.extra with
  | client own =>
    intro waiting checked
    change own.remote = .waiting at waiting
    simp [waiting] at checked
  | listener | schemeRoot => exact fun waiting => waiting.elim

namespace Queued

variable {this after : View}

theorem absent_next (queued : Queued this) : this.extras this.next = none :=
  queued.below this.next le_rfl

theorem keep (queued : Queued this) (below : ∀ id, after.next ≤ id → after.extras id = none)
    (kept : ∀ id listenerId, after.Holds Extra.Waits id → id ∈ this.queue listenerId →
      id ∈ after.queue listenerId)
    (waited : ∀ id, after.Holds Extra.Waits id → this.Holds Extra.Waits id) : Queued after := by
  refine ⟨below, ?_⟩
  intro id waits
  obtain ⟨listenerId, member⟩ := queued.waits id (waited id waits)
  exact ⟨listenerId, kept id listenerId waits member⟩

end Queued

theorem Queued.move {this after event output}
    (queued : Queued this) (move : Move this event output after)
    (patient : ∀ id posted extra, event = ⟨.close id, posted⟩ → this.extras id = some extra →
      ∀ other ∈ extra.queue, ¬ this.Holds Extra.Waits other) : Queued after := by
  have absent := queued.absent_next
  have below := queued.below
  have empty := queue_of_none absent
  cases move with
  | refused | flagged | ended => exact queued
  | rooted | listens | named => refine queued.keep ?_ ?_ ?_ <;> grind
  | @connects _ id listener _ opens found =>
    have longer : (listener.enqueue this.next).awaiting = listener.awaiting ++ [this.next] := rfl
    have queue := queue_of_extras found
    refine ⟨by grind, ?_⟩
    intro one waits
    by_cases new : one = this.next
    · -- the new client is the last of the queue
      exact ⟨id, by grind⟩
    · obtain ⟨listenerId, member⟩ := queued.waits one (by grind)
      exact ⟨listenerId, by grind⟩
  | @unannounced _ id listener _ opens _ found =>
    have longer : (listener.enqueue this.next).awaiting = listener.awaiting ++ [this.next] := rfl
    have queue := queue_of_extras found
    refine queued.keep ?_ ?_ ?_ <;> grind
  | drained opens found gone =>
    have queue := queue_of_extras found
    have unheld : ∀ other ∈ (Extra.listener _).queue, ¬ this.Holds Extra.Waits other :=
      fun other member => not_holds_of_none (gone other member) _
    refine queued.keep ?_ ?_ ?_ <;> grind
  | accepts opens pops found | dropped opens _ pops found =>
    obtain ⟨listens, split, gone⟩ := pops
    have queue := queue_of_extras listens
    have nothing : this.queue _ = [] := queue_of_extras found
    have unheld : ∀ other ∈ _, ¬ this.Holds Extra.Waits other :=
      fun other member => not_holds_of_none (gone other member) _
    refine queued.keep ?_ ?_ ?_ <;> grind
  | popped opens pops found =>
    obtain ⟨listens, split, gone⟩ := pops
    have queue := queue_of_extras listens
    have rooted : this.Holds Extra.Waits _ ↔ _ := holds_of_extras found _
    have unheld : ∀ other ∈ _, ¬ this.Holds Extra.Waits other :=
      fun other member => not_holds_of_none (gone other member) _
    refine queued.keep ?_ ?_ ?_ <;> grind
  | writes found opened present | unsaid _ found opened present =>
    have theirs : this.Holds Extra.Waits _ ↔ _ := holds_of_extras present _
    have nothing : this.queue _ = [] := queue_of_extras present
    refine queued.keep ?_ ?_ ?_ <;> grind
  | reads found =>
    have holds : this.Holds Extra.Waits _ ↔ _ := holds_of_extras found _
    have nothing : this.queue _ = [] := queue_of_extras found
    refine queued.keep ?_ ?_ ?_ <;> grind
  | parts found opened different present =>
    have nothing : this.queue _ = [] := queue_of_extras found
    have empty : this.queue _ = [] := queue_of_extras present
    refine queued.keep ?_ ?_ ?_ <;> grind
  | leaves found | unrooted found =>
    have nothing : this.queue _ = [] := queue_of_extras found
    refine queued.keep ?_ ?_ ?_ <;> grind
  | unlistens found | unnamed found =>
    have queue := queue_of_extras found
    refine queued.keep ?_ ?_ ?_ <;> grind

theorem Queued.start : Queued chan.start.view where
  below _ _ := rfl
  waits _ waits := absurd waits (not_holds_of_none rfl _)

theorem queued_reachable (reached : chan.ReachableWhile Patient this) : Queued this.view := by
  apply reached.invariant (motive := fun this => Queued this.view) Queued.start
  intro before event after output _ queued patient stepped
  refine queued.move (step_move stepped) ?_
  rintro id posted extra rfl found
  exact patient.unawaited found

/-- In every run that closes listeners only when no client waits for them, every
client that waits is in the queue of a listener that is open. -/
theorem waiting_attended {state : ChanScheme} (reached : chan.ReachableWhile Patient state) :
    Attended state := by
  intro id handle client found isClient waiting
  have seen : state.view.extras id = some (.client client) := by
    rw [extras_of_handle found, isClient]
  obtain ⟨listenerId, member⟩ := (queued_reachable reached).waits id ⟨_, seen, waiting⟩
  cases present : state.handles.get? listenerId with
  | none =>
    rw [queue_of_none (extras_of_none present)] at member
    cases member
  | some another =>
    rw [queue_of_extras (extras_of_handle present)] at member
    cases shape : another.extra with
    | client | schemeRoot =>
      rw [shape] at member
      cases member
    | listener listener =>
      rw [shape] at member
      exact ⟨listenerId, another, listener, present, shape, member⟩

/-- A client waits for the listener `"a"`; another one has come and gone. -/
def patience : List Event :=
  [⟨.schemeRoot, none⟩, ⟨.openat 0 [97] O_CREAT, none⟩, ⟨.openat 0 [97] 0, none⟩,
    ⟨.openat 0 [97] 0, none⟩, ⟨.close 2, none⟩]

theorem waiting_attended_patience : ∃ state : ChanScheme, chan.ReachableWhile Patient state ∧
      (state.handles.get? 3).any waits = true ∧ Attended state := by
  have reached := chan.reachableWhile_replay Patient patience (by decide +kernel)
  exact ⟨_, reached, rfl, waiting_attended reached⟩

def abandonment : List Event :=
  [⟨.schemeRoot, none⟩, ⟨.openat 0 [97] O_CREAT, none⟩, ⟨.openat 0 [97] 0, none⟩, ⟨.close 1, none⟩]

/-- The client waits for a listener that is gone.  Reading and writing would
block, and no end of file or broken pipe tells it so. -/
theorem abandoned_client_waits : ∃ state : ChanScheme, chan.Reachable state ∧ ¬ Attended state ∧
      chan.step state ⟨.read 2 1 0, none⟩ = some (state, some (.error .EWOULDBLOCK)) ∧
      chan.step state ⟨.write 2 [1] 0, none⟩ = some (state, some (.error .EWOULDBLOCK)) := by
  have reached := chan.reachable_replay abandonment (by decide +kernel)
  refine ⟨_, reached, ?_, rfl, rfl⟩
  intro attended
  obtain ⟨listenerId, another, listener, found, isListener, _⟩ := attended 2 _ _ rfl rfl rfl
  have entry := (Table.mem_entries_iff _ _ _).mpr found
  change (⟨listenerId, another⟩ : Σ _ : Nat, Handle) ∈
    [⟨2, { default with flags := 0 }⟩, ⟨0, ⟨0, .schemeRoot, none⟩⟩] at entry
  simp only [List.mem_cons, List.not_mem_nil, or_false] at entry
  rcases entry with same | same
  · cases same
    cases isListener
  · cases same
    cases isListener

end EosBase.Chan
