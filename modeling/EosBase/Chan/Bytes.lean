import EosBase.Chan.Links
import Mathlib.Data.List.Infix

/-!
# What goes through a channel

What one end has read, followed by what its buffer holds, is what the other end
has written.  The two ends are known by their numbers, since a number is not
given out again.
-/

namespace EosBase.Chan

open Redox List ChanScheme View

def taken (id : Nat) (event : Event) (output : Option (Result Reply)) : List UInt8 :=
  match event.request, output with
  | .read reader _ _, some (.ok (.bytes data)) => if reader = id then data else []
  | _, _ => []

def given (id : Nat) (event : Event) (output : Option (Result Reply)) : List UInt8 :=
  match event.request, output with
  | .write writer buf _, some (.ok _) => if writer = id then buf else []
  | _, _ => []

abbrev Step := Transition ChanScheme Event (Result Reply)

def readBy (id : Nat) (history : List Step) : List UInt8 :=
  history.flatMap fun step => taken id step.event step.output

def writtenBy (id : Nat) (history : List Step) : List UInt8 :=
  history.flatMap fun step => given id step.event step.output

def Met (history : List Step) (id remoteId : Nat) : Prop :=
  ∃ step ∈ history, step.after.view.Holds (Extra.Meets remoteId) id

def EndOfFile (id : Nat) (step : Step) : Prop :=
  ∃ length flags posted, step.event = ⟨.read id length flags, posted⟩ ∧ length ≠ 0 ∧
    step.output = some (.ok (.bytes []))

@[ext]
structure Traffic where
  met : Nat → Nat → Prop
  read : Nat → List UInt8
  written : Nat → List UInt8

def Traffic.next (traffic : Traffic) (event : Event) (output : Option (Result Reply))
    (after : View) : Traffic where
  met id remoteId := traffic.met id remoteId ∨ after.Holds (Extra.Meets remoteId) id
  read id := traffic.read id ++ taken id event output
  written id := traffic.written id ++ given id event output

structure Balanced (traffic : Traffic) (this : View) : Prop where
  fresh : ∀ id, this.next ≤ id → traffic.read id = [] ∧ traffic.written id = [] ∧
    ∀ remoteId, ¬ traffic.met id remoteId
  waiting : ∀ id client, this.extras id = some (.client client) → client.remote = .waiting →
    client.buffer = [] ∧ traffic.read id = [] ∧ traffic.written id = [] ∧
      ∀ remoteId, ¬ traffic.met id remoteId
  known : ∀ id remoteId, this.Holds (Extra.Meets remoteId) id → traffic.met id remoteId
  single : ∀ id one two, traffic.met id one → traffic.met id two → one = two
  back : ∀ id remoteId, traffic.met id remoteId → traffic.met remoteId id
  behind : ∀ id remoteId, traffic.met id remoteId → traffic.read id <+: traffic.written remoteId
  kept : ∀ id remoteId client, traffic.met id remoteId →
    this.extras id = some (.client client) →
    traffic.read id ++ client.buffer = traffic.written remoteId
  parted : ∀ id client, this.extras id = some (.client client) → client.remote = .closed →
    ∃ remoteId, traffic.met id remoteId ∧ this.extras remoteId = none

variable {id remoteId : Nat} {client : Client} {posted : Option Errno}
  {output : Option (Result Reply)} {event : Event}

namespace Balanced

variable {traffic : Traffic} {this after : View}

theorem next_eq (balanced : Balanced traffic this)
    (meets : ∀ id remoteId, after.Holds (Extra.Meets remoteId) id →
      this.Holds (Extra.Meets remoteId) id) :
    traffic.next event output after = { traffic with
      read := fun id => traffic.read id ++ taken id event output
      written := fun id => traffic.written id ++ given id event output } := by
  refine Traffic.ext ?_ rfl rfl
  funext id remoteId
  refine propext ⟨?_, Or.inl⟩
  rintro (old | new)
  · exact old
  · exact balanced.known id remoteId (meets id remoteId new)

theorem next_same (balanced : Balanced traffic this) (untaken : ∀ id, taken id event output = [])
    (ungiven : ∀ id, given id event output = [])
    (meets : ∀ id remoteId, after.Holds (Extra.Meets remoteId) id →
      this.Holds (Extra.Meets remoteId) id) : traffic.next event output after = traffic := by
  rw [balanced.next_eq meets]
  simp only [untaken, ungiven, append_nil]

structure Tame (this after : View) : Prop where
  next : this.next ≤ after.next
  clients : ∀ id client, after.extras id = some (.client client) →
    this.extras id = some (.client client) ∨ this.next ≤ id ∧ client = .default
  gone : ∀ id, this.extras id = none → id < this.next → after.extras id = none

theorem Tame.refl : Tame this this :=
  ⟨le_rfl, fun _ _ found => Or.inl found, fun _ gone _ => gone⟩

theorem tame_remove : Tame this (this.remove id) := by
  constructor <;> grind

theorem tame_listener {old new}
    (found : this.extras id = some (.listener old)) : Tame this (this.set id (.listener new)) := by
  constructor <;> grind

section

variable (tame : Tame this after)

include tame

theorem Tame.add {extra} (unmet : ∀ client, extra = .client client → client = .default) :
    Tame this (after.add extra) := by
  obtain ⟨next, clients, gone⟩ := tame
  constructor <;> grind

theorem Tame.call {path number} : Tame this (after.call path number) :=
  ⟨tame.next, tame.clients, tame.gone⟩

theorem Tame.meets (id remoteId : Nat)
    (meets : after.Holds (Extra.Meets remoteId) id) : this.Holds (Extra.Meets remoteId) id := by
  obtain ⟨extra, found, met⟩ := meets
  cases extra with
  | client client =>
    rcases tame.clients id client found with same | ⟨_, rfl⟩
    · exact ⟨_, same, met⟩
    · cases met
  | listener listener => exact met.elim
  | schemeRoot => exact met.elim

end

theorem quiet (balanced : Balanced traffic this) (untaken : ∀ id, taken id event output = [])
    (ungiven : ∀ id, given id event output = [])
    (tame : Tame this after) : Balanced (traffic.next event output after) after := by
  have meets := tame.meets
  have same := balanced.next_same untaken ungiven meets
  cases balanced
  obtain ⟨next, clients, gone⟩ := tame
  constructor <;> grind [Client.default]

theorem taken_opens (opens : event.request.Opens) (id : Nat) : taken id event output = [] := by
  obtain ⟨request, posted⟩ := event
  cases opens <;> rfl

theorem given_opens (opens : event.request.Opens) (id : Nat) : given id event output = [] := by
  obtain ⟨request, posted⟩ := event
  cases opens <;> rfl

section

variable (balanced : Balanced traffic this)

include balanced

theorem accepts {listener skipped rest} (linked : Linked this)
    (opens : event.request.Opens) (pops : Pops this id listener skipped remoteId rest)
    (found : this.extras remoteId = some (.client client))
    (after_eq : after = ((this.set id (.listener ⟨listener.path, rest⟩)).set remoteId
      (.client { client with remote := .opened this.next })).add
        (.client { Client.default with remote := .opened remoteId })) :
    Balanced (traffic.next event output after) after := by
  have waits := linked.popped_waits pops found
  have older := linked.lt_next found
  have listens := pops.listens
  have met : ∀ one two, (traffic.next event output after).met one two ↔
      traffic.met one two ∨ one = remoteId ∧ two = this.next ∨
        one = this.next ∧ two = remoteId := by
    intro one two
    change traffic.met one two ∨ after.Holds (Extra.Meets two) one ↔ _
    have known := balanced.known one two
    grind
  have read : ∀ one, (traffic.next event output after).read one = traffic.read one := by
    intro one
    change traffic.read one ++ taken one event output = traffic.read one
    rw [taken_opens opens, append_nil]
  have written : ∀ one, (traffic.next event output after).written one = traffic.written one := by
    intro one
    change traffic.written one ++ given one event output = traffic.written one
    rw [given_opens opens, append_nil]
  obtain ⟨fresh, waiting, known, single, back, behind, kept, parted⟩ := balanced
  constructor
  case parted =>
    intro one own seen closed
    obtain ⟨two, met, gone⟩ := parted one own (by grind) closed
    exact ⟨two, by grind, by grind⟩
  all_goals grind [Client.default]

variable {remote : Client} {flags : Nat}

theorem writes {buf}
    (found : this.extras id = some (.client client)) (opened : client.remote = .opened remoteId)
    (present : this.extras remoteId = some (.client remote))
    (after_eq : after = this.set remoteId (.client { remote with buffer := remote.buffer ++ buf }))
    (event_eq : event = ⟨.write id buf flags, posted⟩)
    (output_eq : output = some (.ok (.count buf.length))) :
    Balanced (traffic.next event output after) after := by
  have theirs := holds_of_extras present
  have meets := balanced.known id remoteId ⟨_, found, opened⟩
  rw [balanced.next_eq (by grind)]
  subst event_eq output_eq
  change Balanced ⟨traffic.met, fun one => traffic.read one ++ [],
    fun one => traffic.written one ++ if id = one then buf else []⟩ after
  obtain ⟨fresh, waiting, known, single, back, behind, kept, parted⟩ := balanced
  constructor
  case parted =>
    intro one own seen closed
    obtain ⟨two, met, gone⟩ := parted one own (by grind) closed
    exact ⟨two, by grind, by grind⟩
  case behind =>
    intro one two seen
    simp only [append_nil]
    exact (behind one two seen).trans (prefix_append _ _)
  all_goals grind

theorem reads {count length} (linked : Linked this)
    (found : this.extras id = some (.client client)) (filled : client.buffer ≠ [])
    (after_eq : after = this.set id (.client { client with buffer := client.buffer.drop count }))
    (event_eq : event = ⟨.read id length flags, posted⟩)
    (output_eq : output = some (.ok (.bytes (client.buffer.take count)))) :
    Balanced (traffic.next event output after) after := by
  have holds := holds_of_extras found
  have older := linked.lt_next found
  have whole := take_append_drop count client.buffer
  rw [balanced.next_eq (by grind)]
  subst event_eq output_eq
  change Balanced ⟨traffic.met, fun one => traffic.read one ++
    if id = one then client.buffer.take count else [], fun one => traffic.written one ++ []⟩ after
  obtain ⟨fresh, waiting, known, single, back, behind, kept, parted⟩ := balanced
  constructor
  case parted =>
    intro one own seen closed
    obtain ⟨two, met, gone⟩ : ∃ two, traffic.met one two ∧ this.extras two = none := by
      by_cases here : one = id
      · rw [here]
        exact parted id client found (by grind)
      · exact parted one own (by grind) closed
    exact ⟨two, by grind, by grind⟩
  case behind =>
    intro one two seen
    simp only [append_nil]
    split
    next here =>
      subst here
      have sum := kept id two client seen found
      rw [← whole, ← append_assoc] at sum
      exact ⟨_, sum⟩
    · rw [append_nil]
      exact behind one two seen
  all_goals grind

theorem parts (found : this.extras id = some (.client client))
    (opened : client.remote = .opened remoteId) (different : remoteId ≠ id)
    (present : this.extras remoteId = some (.client remote))
    (after_eq : after = (this.remove id).set remoteId (.client { remote with remote := .closed }))
    (event_eq : event = ⟨.close id, posted⟩) :
    Balanced (traffic.next event output after) after := by
  have meets := balanced.known id remoteId ⟨_, found, opened⟩
  subst event_eq
  rw [balanced.next_same (fun _ => rfl) (fun _ => rfl) (by grind)]
  obtain ⟨fresh, waiting, known, single, back, behind, kept, parted⟩ := balanced
  constructor
  case parted =>
    intro one own seen closed
    by_cases here : one = remoteId
    · exact ⟨id, by grind, by grind⟩
    · obtain ⟨two, met, gone⟩ := parted one own (by grind) closed
      exact ⟨two, by grind, by grind⟩
  all_goals grind

theorem move (linked : Linked this) (posted : event.posted = none)
    (move : Move this event output after) : Balanced (traffic.next event output after) after := by
  cases move with
  | refused =>
    refine balanced.quiet ?_ ?_ Tame.refl
    · intro id
      obtain ⟨request, posted⟩ := event
      cases request <;> rfl
    · intro id
      obtain ⟨request, posted⟩ := event
      cases request <;> rfl
  | flagged => exact balanced.quiet (fun _ => rfl) (fun _ => rfl) Tame.refl
  | rooted => exact balanced.quiet (fun _ => rfl) (fun _ => rfl) (Tame.refl.add nofun)
  | listens opens =>
    exact balanced.quiet (taken_opens opens) (given_opens opens) (Tame.refl.add nofun)
  | named opens free =>
    exact balanced.quiet (taken_opens opens) (given_opens opens) (Tame.refl.call.add nofun)
  | connects opens found =>
    apply balanced.quiet (taken_opens opens) (given_opens opens)
    apply (tame_listener found).add
    rintro client ⟨⟩
    rfl
  | unannounced _ failed | dropped _ failed | unsaid failed => exact absurd posted failed
  | drained opens found =>
    exact balanced.quiet (taken_opens opens) (given_opens opens) (tame_listener found)
  | accepts opens pops found => exact balanced.accepts linked opens pops found rfl
  | popped opens pops =>
    exact balanced.quiet (taken_opens opens) (given_opens opens) (tame_listener pops.listens)
  | writes found opened present => exact balanced.writes found opened present rfl rfl rfl
  | reads found filled => exact balanced.reads linked found filled rfl rfl rfl
  | ended found =>
    exact balanced.quiet (fun _ => ite_self _) (fun _ => rfl) Tame.refl
  | parts found opened different present =>
    exact balanced.parts found opened different present rfl rfl
  | leaves | unlistens | unrooted => exact balanced.quiet (fun _ => rfl) (fun _ => rfl) tame_remove
  | unnamed => exact balanced.quiet (fun _ => rfl) (fun _ => rfl) tame_remove.call

end

end Balanced

theorem Move.gone {this after} (move : Move this event output after)
    (absent : this.extras id = none) (old : id < this.next) :
    after.extras id = none ∧ given id event output = [] := by
  cases move with
  | refused =>
    refine ⟨absent, ?_⟩
    obtain ⟨request, posted⟩ := event
    cases request <;> rfl
  | flagged | ended => exact ⟨absent, rfl⟩
  | rooted | unsaid | reads | parts | leaves | unlistens | unnamed
  | unrooted => exact ⟨by grind, rfl⟩
  | listens opens | named opens | connects opens | unannounced opens
  | drained opens => exact ⟨by grind, Balanced.given_opens opens id⟩
  | accepts opens pops | popped opens pops | dropped opens _ pops =>
    have listens := pops.listens
    exact ⟨by grind, Balanced.given_opens opens id⟩
  | writes found =>
    refine ⟨by grind, if_neg ?_⟩
    rintro rfl
    cases found.symm.trans absent

def traffic (history : List Step) : Traffic where
  met := Met history
  read id := readBy id history
  written id := writtenBy id history

theorem traffic_append (history : List Step) (step : Step) : traffic (history ++ [step]) =
      (traffic history).next step.event step.output step.after.view := by
  apply Traffic.ext
  · funext id remoteId
    change (∃ old ∈ history ++ [step], old.after.view.Holds (Extra.Meets remoteId) id) =
      ((∃ old ∈ history, old.after.view.Holds (Extra.Meets remoteId) id) ∨
        step.after.view.Holds (Extra.Meets remoteId) id)
    simp [or_and_right, exists_or]
  · funext id
    change readBy id (history ++ [step]) = readBy id history ++ taken id step.event step.output
    simp [readBy]
  · funext id
    change writtenBy id (history ++ [step]) =
      writtenBy id history ++ given id step.event step.output
    simp [writtenBy]

theorem balanced_start : Balanced (traffic []) chan.start.view := by
  have unmet : ∀ id remoteId, ¬ (traffic []).met id remoteId := by
    rintro id remoteId ⟨step, member, _⟩
    cases member
  have absent : ∀ id, chan.start.view.extras id = none := fun _ => rfl
  have unused : ∀ (property : Extra → Prop) id, ¬ chan.start.view.Holds property id :=
    fun _ id => not_holds_of_none (absent id) _
  refine ⟨fun id _ => ⟨rfl, rfl, unmet id⟩, ?_, ?_, ?_, ?_, ?_, ?_, ?_⟩ <;> grind

variable {history : List Step} {state : ChanScheme}

theorem balanced_run (run : chan.Run Served history state) :
    Balanced (traffic history) state.view := by
  induction run with
  | start => exact balanced_start
  | step earlier served stepped ih =>
    rw [traffic_append]
    exact ih.move (linked_reachable ⟨_, earlier⟩) served.1 (step_move stepped)

theorem closed_of_endOfFile {step} (told : EndOfFile id step)
    (move : Move step.before.view step.event step.output step.after.view) :
    step.before.view.extras id = some (.client ⟨[], .closed⟩) ∧
      step.after.view = step.before.view := by
  obtain ⟨before, event, output, after⟩ := step
  obtain ⟨length, flags, posted, event_eq, positive, output_eq⟩ := told
  subst event_eq output_eq
  generalize after.view = seen at move ⊢
  generalize reply_eq : (some (.ok (.bytes [])) : Option (Result Reply)) = reply at move
  cases move with
  | refused => cases reply_eq
  | listens opens | named opens | connects opens | unannounced opens | drained opens | accepts opens
  | dropped opens | popped opens => cases opens
  | reads found filled =>
    injection reply_eq with reply_eq
    injection reply_eq with reply_eq
    injection reply_eq with nothing
    have none_taken := congrArg List.length nothing
    have some_there := length_pos_of_ne_nil filled
    rw [length_nil, length_take] at none_taken
    omega
  | ended found => exact ⟨found, rfl⟩

theorem Met.append (met : Met history id remoteId)
    (step : Step) : Met (history ++ [step]) id remoteId := by
  obtain ⟨old, member, meets⟩ := met
  exact ⟨old, mem_append_left _ member, meets⟩

theorem gone_step {next} (run : chan.Run Served history state)
    (stepped : chan.step state event = some (next, output)) (met : Met history id remoteId)
    (absent : state.view.extras remoteId = none) : next.view.extras remoteId = none ∧
      writtenBy remoteId (history ++ [⟨state, event, output, next⟩]) =
        writtenBy remoteId history := by
  have balanced := balanced_run run
  have old : remoteId < state.view.next := by
    by_contra late
    exact (balanced.fresh remoteId (Nat.le_of_not_lt late)).2.2 id (balanced.back id remoteId met)
  obtain ⟨still, nothing⟩ := (step_move stepped).gone absent old
  refine ⟨still, ?_⟩
  have sum := congrFun (congrArg Traffic.written (traffic_append history
    ⟨state, event, output, next⟩)) remoteId
  change _ = writtenBy remoteId history ++ given remoteId event output at sum
  rw [nothing, append_nil] at sum
  exact sum

theorem endOfFile_run {earlier later step}
    (run : chan.Run Served history state) (same : history = earlier ++ step :: later)
    (told : EndOfFile id step) :
    ∃ remoteId, Met history id remoteId ∧ readBy id earlier = writtenBy remoteId history ∧
      state.view.extras remoteId = none := by
  obtain ⟨taken, stepped, served, onward⟩ := run.split same
  rw [same, append_cons]
  clear same run
  induction onward with
  | start =>
    -- the end of the file is told now: what was written has been read
    rw [append_nil]
    have balanced := balanced_run taken
    obtain ⟨closed, _⟩ := closed_of_endOfFile told (step_move stepped)
    obtain ⟨remoteId, met, absent⟩ := balanced.parted id _ closed rfl
    obtain ⟨still, unwritten⟩ := gone_step taken stepped met absent
    have sum := balanced.kept id remoteId _ met closed
    rw [append_nil] at sum
    exact ⟨remoteId, met.append _, sum.trans unwritten.symm, still⟩
  | step before _ next ih =>
    obtain ⟨remoteId, met, drained, absent⟩ := ih
    have reached := (taken.step served stepped).append before
    obtain ⟨still, unwritten⟩ := gone_step reached next met absent
    rw [← append_assoc]
    exact ⟨remoteId, met.append _, drained.trans unwritten.symm, still⟩

structure Sound (this : ChanScheme) : Prop where
  paired : ∀ id handle client remoteId, this.handles.get? id = some handle →
    handle.extra = .client client → client.remote = .opened remoteId →
    ∃ remote other, this.handles.get? remoteId = some remote ∧ remote.extra = .client other ∧
      other.remote = .opened id
  listeners : ∀ path id, this.listeners.get? path = some id →
    ∃ handle listener, this.handles.get? id = some handle ∧ handle.extra = .listener listener ∧
      listener.path = some path
  once : ∀ id handle listener, this.handles.get? id = some handle →
    handle.extra = .listener listener → listener.awaiting.Nodup
  apart : ∀ id handle listener other another waits waiting,
    this.handles.get? id = some handle → handle.extra = .listener listener →
    this.handles.get? other = some another → another.extra = .listener waits →
    waiting ∈ listener.awaiting → waiting ∈ waits.awaiting → id = other
  awaiting : ∀ id handle listener waiting, this.handles.get? id = some handle →
    handle.extra = .listener listener → waiting ∈ listener.awaiting →
    (waiting < this.nextId ∧ this.handles.get? waiting = none) ∨
      ∃ client own, this.handles.get? waiting = some client ∧ client.extra = .client own ∧
        own.remote = .waiting

theorem Linked.sound {this} (linked : Linked this.view) : Sound this := by
  have seen : ∀ {id handle extra}, this.handles.get? id = some handle → handle.extra = extra →
      this.view.extras id = some extra := by
    rintro id handle extra found rfl
    exact extras_of_handle found
  refine ⟨?_, ?_, ?_, ?_, ?_⟩
  · intro id handle client remoteId found isClient opened
    obtain ⟨⟨_, extra, _⟩, present, met⟩ :=
      handle_of_holds (linked.back id remoteId ⟨_, seen found isClient, opened⟩)
    cases extra with
    | client other => exact ⟨_, other, present, rfl, met⟩
    | listener | schemeRoot => exact met.elim
  · intro path id called
    obtain ⟨⟨_, extra, _⟩, present, met⟩ :=
      handle_of_holds (linked.named path id called)
    cases extra with
    | listener listener => exact ⟨_, listener, present, rfl, met⟩
    | client | schemeRoot => exact met.elim
  · intro id handle listener found isListener
    have distinct := linked.once id
    rw [queue_of_extras (seen found isListener)] at distinct
    exact distinct
  · intro id handle listener other another waits waiting found isListener present isOther one two
    apply linked.apart id other waiting
    · rw [queue_of_extras (seen found isListener)]
      exact one
    · rw [queue_of_extras (seen present isOther)]
      exact two
  · intro id handle listener waiting found isListener member
    have queued := linked.queued id waiting (by
      rw [queue_of_extras (seen found isListener)]
      exact member)
    rcases queued.2 with absent | waits
    · exact .inl ⟨queued.1, Option.map_eq_none_iff.mp absent⟩
    obtain ⟨⟨_, extra, _⟩, present, own⟩ := handle_of_holds waits
    cases extra with
    | client inner => exact .inr ⟨_, inner, present, rfl, own⟩
    | listener | schemeRoot => exact own.elim

/-- While everybody can be told of events, the handles fit together, no request
panics, and each end reads what the other has written, all of it before the end
of the file. -/
theorem channel_invariant {history : List Step} {state : ChanScheme}
    (run : chan.Run Served history state) :
    Sound state ∧
      (∀ event, Served state event → chan.step state event ≠ none) ∧
      ∀ id remoteId, Met history id remoteId →
        readBy id history <+: writtenBy remoteId history ∧
        ∀ earlier step later, history = earlier ++ step :: later → EndOfFile id step →
          readBy id earlier = writtenBy remoteId history := by
  have linked := linked_reachable ⟨_, run⟩
  have balanced := balanced_run run
  refine ⟨linked.sound, fun event served => step_total linked served, ?_⟩
  intro id remoteId met
  refine ⟨balanced.behind id remoteId met, ?_⟩
  intro earlier step later same told
  obtain ⟨other, met_other, drained, _⟩ := endOfFile_run run same told
  rw [balanced.single id remoteId other met met_other]
  exact drained

def conversation : List Event :=
  [⟨.schemeRoot, none⟩, ⟨.openat 0 [97] O_CREAT, none⟩, ⟨.openat 0 [97] 0, none⟩,
    ⟨.dup 1 listenBytes true, none⟩, ⟨.write 2 [104, 101, 108, 108, 111] 0, none⟩,
    ⟨.read 3 2 0, none⟩, ⟨.close 2, none⟩, ⟨.read 3 9 0, none⟩, ⟨.read 3 9 0, none⟩]

theorem channel_invariant_conversation :
    ∃ history state, chan.Run Served history state ∧ Met history 3 2 ∧
      readBy 3 history = [104, 101, 108, 108, 111] ∧
      (Sound state ∧ (∀ event, Served state event → chan.step state event ≠ none) ∧
        ∀ id remoteId, Met history id remoteId →
          readBy id history <+: writtenBy remoteId history ∧
          ∀ earlier step later, history = earlier ++ step :: later → EndOfFile id step →
            readBy id earlier = writtenBy remoteId history) := by
  have run := chan.run_replay Served conversation (by decide +kernel)
  refine ⟨_, _, run, ?_, ?_, channel_invariant run⟩
  · refine ⟨_, mem_of_getElem? (i := 3) rfl, ?_⟩
    exact ⟨_, rfl, rfl⟩
  · rfl

end EosBase.Chan
