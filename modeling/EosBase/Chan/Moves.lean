import EosBase.Chan.Scheme
import Mathlib.Logic.Function.Basic

/-!
# What a request does to channels

Flags and names of handles do not decide who is connected to whom.  `View` keeps
what does: what each number is, which paths are taken, and which number comes
next.  `step_move` takes every handler apart once, and what is proved about runs
is proved by cases on `Move`.
-/

namespace EosBase.Chan

open Redox ChanScheme Function Handle Option Table

structure View where
  extras : Nat → Option Extra
  named : Name → Option Nat
  next : Nat

variable {id other : Nat} {path : Name}

namespace View

def set (this : View) (id : Nat) (extra : Extra) : View :=
  { this with extras := update this.extras id (some extra) }

def add (this : View) (extra : Extra) : View :=
  { this with
    extras := update this.extras this.next (some extra)
    next := this.next + 1 }

def remove (this : View) (id : Nat) : View :=
  { this with extras := update this.extras id none }

def call (this : View) (path : Name) (number : Option Nat) : View :=
  { this with named := update this.named path number }

variable {this : View} {extra : Extra} {number : Option Nat}

@[simp, grind =]
theorem extras_set :
    (this.set id extra).extras other = if other = id then some extra else this.extras other :=
  update_apply this.extras id (some extra) other

@[simp, grind =]
theorem extras_add : (this.add extra).extras other =
    if other = this.next then some extra else this.extras other :=
  update_apply this.extras this.next (some extra) other

@[simp, grind =]
theorem extras_remove :
    (this.remove id).extras other = if other = id then none else this.extras other :=
  update_apply this.extras id none other

@[simp, grind =]
theorem extras_call : (this.call path number).extras other = this.extras other := rfl

@[simp, grind =]
theorem named_set : (this.set id extra).named path = this.named path := rfl

@[simp, grind =]
theorem named_add : (this.add extra).named path = this.named path := rfl

@[simp, grind =]
theorem named_remove : (this.remove id).named path = this.named path := rfl

@[simp, grind =]
theorem named_call {wanted} : (this.call path number).named wanted =
    if wanted = path then number else this.named wanted :=
  update_apply this.named path number wanted

@[simp, grind =]
theorem next_set : (this.set id extra).next = this.next := rfl

@[simp, grind =]
theorem next_add : (this.add extra).next = this.next + 1 := rfl

@[simp, grind =]
theorem next_remove : (this.remove id).next = this.next := rfl

@[simp, grind =]
theorem next_call : (this.call path number).next = this.next := rfl

end View

variable {changed handle : Handle} {this : ChanScheme}

namespace ChanScheme

def view (this : ChanScheme) : View where
  extras id := (this.handles.get? id).map extra
  named := this.listeners.get?
  next := this.nextId

theorem view_ext {one two : View} (extras : ∀ id, one.extras id = two.extras id)
    (named : ∀ path, one.named path = two.named path) (next : one.next = two.next) : one = two := by
  cases one
  cases next
  cases funext extras
  cases funext named
  rfl

theorem extras_of_handle (found : this.handles.get? id = some handle) :
    this.view.extras id = some handle.extra :=
  congrArg (Option.map extra) found

theorem extras_of_none (absent : this.handles.get? id = none) : this.view.extras id = none :=
  congrArg (Option.map extra) absent

theorem handle_of_extras {extra} (found : this.view.extras id = some extra) :
    ∃ handle, this.handles.get? id = some handle ∧ handle.extra = extra :=
  map_eq_some_iff.mp found

theorem view_setHandle : (this.setHandle id handle).view = this.view.set id handle.extra := by
  refine view_ext ?_ (fun _ => rfl) rfl
  intro other
  rw [View.extras_set]
  simp only [view, setHandle, get?_insert]
  split <;> rfl

theorem view_addHandle : (this.addHandle handle).view = this.view.add handle.extra := by
  refine view_ext ?_ (fun _ => rfl) rfl
  intro other
  rw [View.extras_add]
  change ((this.handles.insert this.nextId handle).get? other).map extra =
    if other = this.nextId then some handle.extra else (this.handles.get? other).map extra
  rw [get?_insert]
  split <;> rfl

theorem view_erase :
    ({ this with handles := this.handles.erase id } : ChanScheme).view = this.view.remove id := by
  refine view_ext ?_ (fun _ => rfl) rfl
  intro other
  rw [View.extras_remove]
  simp only [view, get?_erase]
  split <;> rfl

theorem view_name {number} :
    ({ this with listeners := this.listeners.insert path number } : ChanScheme).view =
      this.view.call path (some number) := by
  refine view_ext (fun _ => rfl) ?_ rfl
  intro wanted
  rw [View.named_call]
  exact get?_insert _ _ _ _

theorem view_unname (scheme : ChanScheme) (path : Name) :
    ({ scheme with listeners := scheme.listeners.erase path } : ChanScheme).view =
      scheme.view.call path none := by
  refine view_ext (fun _ => rfl) ?_ rfl
  intro wanted
  rw [View.named_call]
  exact get?_erase _ _ _

theorem view_setSame (found : this.handles.get? id = some handle)
    (same : changed.extra = handle.extra) : (this.setHandle id changed).view = this.view := by
  rw [view_setHandle, same]
  refine view_ext ?_ (fun _ => rfl) rfl
  intro other
  rw [View.extras_set]
  split
  next here =>
    subst here
    exact (extras_of_handle found).symm
  · rfl

end ChanScheme

inductive Request.Opens : Request → Prop where
  | openat {dirfd path flags} : Opens (.openat dirfd path flags)
  | dup {id buf utf8} : Opens (.dup id buf utf8)

def Listener.enqueue (this : Listener) (id : Nat) : Listener :=
  { this with awaiting := this.awaiting ++ [id] }

structure Pops (this : View) (id : Nat) (listener : Listener) (skipped : List Nat)
    (remoteId : Nat) (rest : List Nat) : Prop where
  listens : this.extras id = some (.listener listener)
  queue : listener.awaiting = skipped ++ remoteId :: rest
  gone : ∀ other ∈ skipped, this.extras other = none

inductive Move (this : View) : Event → Option (Result Reply) → View → Prop where
  | refused {event error} : Move this event (some (.error error)) this
  | flagged {id arg posted output} : Move this ⟨.setFlags id arg, posted⟩ output this
  | rooted {posted output} : Move this ⟨.schemeRoot, posted⟩ output (this.add .schemeRoot)
  /-- A listener without a path. -/
  | listens {event output} : event.request.Opens →
      Move this event output (this.add (.listener ⟨none, []⟩))
  | named {event path output} : event.request.Opens → this.named path = none →
      Move this event output
        ((this.call path (some this.next)).add (.listener ⟨some path, []⟩))
  | connects {event id listener output} : event.request.Opens →
      this.extras id = some (.listener listener) →
      Move this event output
        ((this.set id (.listener (listener.enqueue this.next))).add (.client .default))
  /-- A client is queued, and dropped since the listener could not be told. -/
  | unannounced {event id listener output} : event.request.Opens → event.posted ≠ none →
      this.extras id = some (.listener listener) →
      Move this event output (this.set id (.listener (listener.enqueue this.next)))
  /-- Nobody is left in the queue. -/
  | drained {event id listener output} : event.request.Opens →
      this.extras id = some (.listener listener) →
      (∀ other ∈ listener.awaiting, this.extras other = none) →
      Move this event output (this.set id (.listener ⟨listener.path, []⟩))
  | accepts {event id listener skipped remoteId rest client output} : event.request.Opens →
      Pops this id listener skipped remoteId rest →
      this.extras remoteId = some (.client client) →
      Move this event output
        (((this.set id (.listener ⟨listener.path, rest⟩)).set remoteId
          (.client { client with remote := .opened this.next })).add
            (.client { Client.default with remote := .opened remoteId }))
  /-- A client is accepted, and its new remote dropped since it could not be told. -/
  | dropped {event id listener skipped remoteId rest client output} : event.request.Opens →
      event.posted ≠ none → Pops this id listener skipped remoteId rest →
      this.extras remoteId = some (.client client) →
      Move this event output
        ((this.set id (.listener ⟨listener.path, rest⟩)).set remoteId
          (.client { client with remote := .opened this.next }))
  | popped {event id listener skipped remoteId rest output} : event.request.Opens →
      Pops this id listener skipped remoteId rest → this.extras remoteId = some .schemeRoot →
      Move this event output (this.set id (.listener ⟨listener.path, rest⟩))
  | writes {id buf flags posted client remoteId remote} :
      this.extras id = some (.client client) → client.remote = .opened remoteId →
      this.extras remoteId = some (.client remote) →
      Move this ⟨.write id buf flags, posted⟩ (some (.ok (.count buf.length)))
        (this.set remoteId (.client { remote with buffer := remote.buffer ++ buf }))
  /-- Bytes are written, and the writer told of the failure to tell the reader. -/
  | unsaid {id buf flags posted client remoteId remote error} : posted ≠ none →
      this.extras id = some (.client client) → client.remote = .opened remoteId →
      this.extras remoteId = some (.client remote) →
      Move this ⟨.write id buf flags, posted⟩ (some (.error error))
        (this.set remoteId (.client { remote with buffer := remote.buffer ++ buf }))
  | reads {id length flags posted client} : this.extras id = some (.client client) →
      client.buffer ≠ [] →
      Move this ⟨.read id length flags, posted⟩
        (some (.ok (.bytes (client.buffer.take (min length client.buffer.length)))))
        (this.set id (.client
          { client with buffer := client.buffer.drop (min length client.buffer.length) }))
  /-- End of file. -/
  | ended {id length flags posted} : this.extras id = some (.client ⟨[], .closed⟩) →
      Move this ⟨.read id length flags, posted⟩ (some (.ok (.bytes []))) this
  | parts {id posted client remoteId remote} : this.extras id = some (.client client) →
      client.remote = .opened remoteId → remoteId ≠ id →
      this.extras remoteId = some (.client remote) →
      Move this ⟨.close id, posted⟩ none
        ((this.remove id).set remoteId (.client { remote with remote := .closed }))
  | leaves {id posted client} : this.extras id = some (.client client) →
      (∀ remoteId, client.remote ≠ .opened remoteId) →
      Move this ⟨.close id, posted⟩ none (this.remove id)
  | unlistens {id posted listener} : this.extras id = some (.listener listener) →
      listener.path = none → Move this ⟨.close id, posted⟩ none (this.remove id)
  | unnamed {id posted listener path} : this.extras id = some (.listener listener) →
      listener.path = some path →
      Move this ⟨.close id, posted⟩ none ((this.remove id).call path none)
  | unrooted {id posted} : this.extras id = some .schemeRoot →
      Move this ⟨.close id, posted⟩ none (this.remove id)

def Moves (this : View) (event : Event) : ChanScheme.Done → Prop :=
  Ends fun done => Move this event (some done.2) done.1.view

variable {posted : Option Errno} {flags : Nat} {event : Event} {after : ChanScheme}
  {reply : Result Reply} {listener : Listener}

namespace ChanScheme

theorem connected_move {new base} (told : posted = none →
      Move base event (some (.ok (.thisScheme this.nextId))) (this.addHandle new).view)
    (untold : ∀ error, posted = some error → Move base event (some (.error error)) this.view) :
    Moves base event (this.connected posted new) := by
  cases posted with
  | none =>
    exact told rfl
  | some error =>
    exact untold error rfl

theorem connect_ok (done : handle.connect id = .ok changed) :
    ∃ listener, handle.extra = .listener listener ∧
      changed.extra = .listener (listener.enqueue id) := by
  unfold connect at done
  split at done
  next listener listens =>
    cases done
    exact ⟨listener, listens, rfl⟩
  · cases done

theorem enqueued_move {new} (opens : event.request.Opens)
    (found : this.handles.get? id = some handle)
    (connected : handle.connect this.nextId = .ok changed) (client : new.extra = .client .default) :
    Moves this.view event ((this.setHandle id changed).connected event.posted new) := by
  obtain ⟨listener, listens, queued⟩ := connect_ok connected
  have present : this.view.extras id = some (.listener listener) := by
    rw [extras_of_handle found, listens]
  refine connected_move ?_ ?_
  · intro _
    rw [view_addHandle, view_setHandle, queued, client]
    exact .connects opens present
  · intro error posted
    rw [view_setHandle, queued]
    exact .unannounced opens (by rw [posted]; exact some_ne_none error) present

theorem openPath_move (opens : event.request.Opens) :
    Moves this.view event (this.openPath path flags event.posted) := by
  unfold openPath
  dsimp only
  split
  next creates =>
    rw [Moves, Ends, view_addHandle]
    by_cases nameless : path = []
    · rw [if_pos nameless, if_pos nameless]
      exact .listens opens
    rw [if_neg nameless, if_neg nameless, view_name]
    have free : this.listeners.get? path = none := by
      simpa [contains] using creates.2
    exact .named opens free
  next =>
  split
  · exact .refused
  split
  · exact .refused
  next listenerId _ =>
  split
  · trivial
  next listener found =>
  split
  · exact .refused
  next changed connected => exact enqueued_move opens found connected rfl

theorem extras_popped {path rest} :
    (this.setHandle id { handle with extra := .listener ⟨path, rest⟩ }).view.extras other =
      if other = id then some (.listener ⟨path, rest⟩) else this.view.extras other := by
  rw [view_setHandle, View.extras_set]

theorem acceptLoop_move (opens : event.request.Opens)
    (listens : this.view.extras id = some (.listener listener)) {skipped rest}
    (queue : listener.awaiting = skipped ++ rest)
    (gone : ∀ other ∈ skipped, this.view.extras other = none) :
    Moves this.view event (this.acceptLoop id handle listener.path event.posted rest) := by
  induction rest generalizing skipped with
  | nil =>
    rw [acceptLoop, Moves, Ends, view_setHandle]
    rw [List.append_nil] at queue
    exact .drained opens listens (by rw [queue]; exact gone)
  | cons remoteId rest ih =>
    unfold acceptLoop
    dsimp only
    split
    next absent =>
      have missing := extras_of_none absent
      rw [extras_popped] at missing
      split at missing
      · cases missing
      next different =>
      have longer : listener.awaiting = (skipped ++ [remoteId]) ++ rest := by
        rw [queue, List.append_assoc]
        rfl
      refine ih longer ?_
      intro other member
      rcases List.mem_append.mp member with earlier | last
      · exact gone other earlier
      · rw [List.mem_singleton.mp last]
        exact missing
    next remote found =>
    have present := extras_of_handle found
    rw [extras_popped] at present
    have pops : Pops this.view id listener skipped remoteId rest := ⟨listens, queue, gone⟩
    split
    next client isClient =>
      rw [isClient] at present
      split at present
      · cases present
      next different =>
      refine connected_move ?_ ?_
      · intro _
        rw [view_addHandle, view_setHandle, view_setHandle]
        exact .accepts opens pops present
      · intro error posted
        rw [view_setHandle, view_setHandle]
        exact .dropped opens (by rw [posted]; exact some_ne_none error) pops present
    · trivial
    next isRoot =>
    rw [isRoot] at present
    split at present
    · cases present
    next different =>
    rw [fail, Moves, Ends, view_setHandle]
    exact .popped opens pops present

theorem requireListener_ok
    (done : handle.requireListener = .ok listener) : handle.extra = .listener listener := by
  unfold requireListener at done
  split at done
  next found =>
    cases done
    exact found
  · cases done

theorem requireClient_ok {client}
    (done : handle.requireClient = .ok client) : handle.extra = .client client := by
  unfold requireClient at done
  split at done
  next found =>
    cases done
    exact found
  · cases done

theorem openat_move {dirfd} (opens : event.request.Opens) :
    Moves this.view event (this.openat dirfd path flags event.posted) := by
  unfold openat
  split
  · exact .refused
  · split
    · exact openPath_move opens
    · exact .refused

theorem dup_move {buf utf8} (opens : event.request.Opens) :
    Moves this.view event (this.dup id buf utf8 event.posted) := by
  unfold dup
  split
  · unfold dupListen
    split
    · exact .refused
    next handle found =>
    split
    · exact .refused
    next listener listens =>
    have present : this.view.extras id = some (.listener listener) := by
      rw [extras_of_handle found, requireListener_ok listens]
    exact acceptLoop_move opens present (List.nil_append _).symm (by simp)
  · split
    · unfold dupConnect
      split
      · exact .refused
      next handle found =>
      split
      · exact .refused
      next changed connected => exact enqueued_move opens found connected rfl
    · unfold dupName
      split
      · exact .refused
      split
      · exact .refused
      split
      · exact .refused
      · split
        · exact .refused
        · exact openPath_move opens

theorem write_move {buf} :
    Moves this.view ⟨.write id buf flags, posted⟩ (this.write id buf flags posted) := by
  unfold write
  split
  · exact .refused
  next handle found =>
  split
  · exact .refused
  next client isClient =>
  have own : this.view.extras id = some (.client client) := by
    rw [extras_of_handle found, requireClient_ok isClient]
  split
  next remoteId opened =>
    split
    · trivial
    next remote present =>
    split
    next other isOther =>
      have theirs : this.view.extras remoteId = some (.client other) := by
        rw [extras_of_handle present, isOther]
      dsimp only
      split
      · split
        · rw [fail, Moves, Ends, view_setHandle]
          exact .unsaid (some_ne_none _) own opened theirs
        · rw [Moves, Ends, view_setHandle]
          exact .writes own opened theirs
      · rw [Moves, Ends, view_setHandle]
        exact .writes own opened theirs
    · trivial
  · exact .refused
  · exact .refused

theorem read_move {length} :
    Moves this.view ⟨.read id length flags, posted⟩ (this.read id length flags) := by
  unfold read
  split
  · exact .refused
  next handle found =>
  split
  · exact .refused
  next client isClient =>
  have own : this.view.extras id = some (.client client) := by
    rw [extras_of_handle found, requireClient_ok isClient]
  split
  next filled =>
    rw [Moves, Ends, view_setHandle]
    exact .reads own filled
  next empty =>
  split
  next closed =>
    have nothing : client = ⟨[], .closed⟩ := by
      cases client
      cases closed
      cases not_not.mp empty
      rfl
    rw [nothing] at own
    exact .ended own
  · exact .refused

theorem onClose_move (done : this.onClose id posted = some after) :
    Move this.view ⟨.close id, posted⟩ none after.view := by
  unfold onClose at done
  split at done
  · cases done
  next handle found =>
  have own := extras_of_handle found
  dsimp only at done
  split at done
  next client isClient =>
    rw [isClient] at own
    split at done
    next remoteId opened =>
      split at done
      · cases done
      next remote present =>
      have theirs : ({ this with handles := this.handles.erase id } : ChanScheme).view.extras
          remoteId = some remote.extra := extras_of_handle present
      rw [view_erase, View.extras_remove] at theirs
      split at theirs
      · cases theirs
      next different =>
      split at done
      next other isOther =>
        rw [isOther] at theirs
        split at done
        · cases done
        · cases done
          rw [view_setHandle, view_erase]
          exact .parts own opened different theirs
      · cases done
    next unopened =>
    cases done
    rw [view_erase]
    exact .leaves own unopened
  next listener isListener =>
    rw [isListener] at own
    split at done
    next path named =>
      cases done
      have unnamed := view_unname { this with handles := this.handles.erase id } path
      rw [view_erase] at unnamed
      rw [unnamed]
      exact .unnamed own named
    next nameless =>
    cases done
    rw [view_erase]
    exact .unlistens own nameless
  next isRoot =>
  rw [isRoot] at own
  cases done
  rw [view_erase]
  exact .unrooted own

end ChanScheme

theorem Moves.of_replied {output done this}
    (moves : Moves this event done) (stepped : replied done = some (after, output)) :
    Move this event output after.view := by
  obtain ⟨_, rfl, rfl⟩ := EosBase.of_replied stepped
  exact moves

theorem step_move {output} (stepped : chan.step this event = some (after, output)) :
    Move this.view event output after.view := by
  obtain ⟨request, posted⟩ := event
  cases request with
  | schemeRoot =>
    cases stepped
    rw [schemeRoot, view_addHandle]
    exact .rooted
  | openat dirfd path flags => exact (openat_move .openat).of_replied stepped
  | dup id buf utf8 => exact (dup_move .dup).of_replied stepped
  | write id buf flags => exact write_move.of_replied stepped
  | read id length flags => exact read_move.of_replied stepped
  | setFlags id arg =>
    refine Moves.of_replied ?_ stepped
    unfold setFlags
    split
    · exact .refused
    next handle found =>
    have unseen : (this.setHandle id { handle with flags := arg }).view = this.view :=
      view_setSame found rfl
    rw [Moves, Ends, unseen]
    exact .flagged
  | close id =>
    obtain ⟨state, done, same⟩ := map_eq_some_iff.mp stepped
    cases same
    exact onClose_move done

end EosBase.Chan
