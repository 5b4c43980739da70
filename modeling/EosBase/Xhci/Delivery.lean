import EosBase.Xhci.Reactor

/-!
# Transfer events and the transfers that they are for

A transfer event names a TRB of some ring.  The reactor delivers it to a transfer of that
ring whose TRBs include the named one exactly when no state in front of the first such
transfer stands in the way: a transfer that wraps around the end of another ring is taken
for the right one wherever the TRB lies, and a transfer of a ring that is gone is finished
with whatever event comes.
-/

namespace EosBase.Xhci

open IrqReactor List TrbType Nat Table

variable {hci : Hci} {ring : Ring} {trb : Trb} {index : Nat}

/-- The slots of a ring of a given length from one to another one, in the order of the ring,
include a slot. -/
def Between (length first last index : Nat) : Prop :=
  ∃ steps ≤ (last + length - first) % length, (first + steps) % length = index

/-- The state is one of a transfer of the ring, whose TRBs include the one in the slot. -/
def Concerns (hci : Hci) (ring : Ring) (index : Nat) : StateKind → Prop
  | .transfer firstPhysPtr lastPhysPtr ringId =>
    hci.withRing ringId = some ring ∧
      ∃ first last, first < ring.trbs.length ∧ last < ring.trbs.length ∧
        firstPhysPtr = ring.trbPhysPtr hci.ac64 first ∧
        lastPhysPtr = ring.trbPhysPtr hci.ac64 last ∧
        Between ring.trbs.length first last index
  | _ => False

/-- What a future registers: the TRBs of a transfer are in its ring, for as long as that
exists, and the other events are those of `next_misc_event_trb`. -/
def Registered (hci : Hci) : StateKind → Prop
  | .transfer firstPhysPtr lastPhysPtr ringId =>
    ∀ ring, hci.withRing ringId = some ring →
      ∃ first last, first < ring.trbs.length ∧ last < ring.trbs.length ∧
        firstPhysPtr = ring.trbPhysPtr hci.ac64 first ∧
        lastPhysPtr = ring.trbPhysPtr hci.ac64 last
  | .other trbType => trbType ∈ miscEventTrbTypes
  | .commandCompletion _ => True

def DisjointRings (hci : Hci) : Prop :=
  ∀ id otherId ring other, hci.withRing id = some ring → hci.withRing otherId = some other →
    ring ≠ other →
    ring.trbPhysPtr hci.ac64 ring.trbs.length ≤ other.physBase hci.ac64 ∨
      other.trbPhysPtr hci.ac64 other.trbs.length ≤ ring.physBase hci.ac64

/-- The event is handed only to transfers that it concerns, and to one if there is one. -/
def Delivered (hci : Hci) (ring : Ring) (index : Nat) (states : List State) (trb : Trb)
    (outcome : Outcome) : Prop :=
  (∀ state message, (state, some message) ∈ outcome.finished → Concerns hci ring index state.kind) ∧
    ((∃ state ∈ states, Concerns hci ring index state.kind) →
      ∃ state message, (state, some message) ∈ outcome.finished ∧
        Concerns hci ring index state.kind ∧ message.eventTrb = trb)

/-- The state is not one of a transfer whose ring is gone, or that wraps around the end of
another ring. -/
def Clear (hci : Hci) (ring : Ring) : StateKind → Prop
  | .transfer firstPhysPtr lastPhysPtr ringId =>
    ∃ own, hci.withRing ringId = some own ∧ (own = ring ∨ firstPhysPtr ≤ lastPhysPtr)
  | _ => True

/-- No state in front of the first one that the event concerns stands in the way. -/
def Unobstructed (hci : Hci) (ring : Ring) (index : Nat) : List State → Prop
  | [] => True
  | state :: states =>
    Concerns hci ring index state.kind ∨
      Clear hci ring state.kind ∧ Unobstructed hci ring index states

variable {first last : Nat}

theorem trbPhysPtr_le_iff {ac64 second} :
    ring.trbPhysPtr ac64 first ≤ ring.trbPhysPtr ac64 second ↔ first ≤ second := by
  simp only [Ring.trbPhysPtr, Ring.trbSize]
  omega

theorem hits_iff_between (ac64 : Bool) (firstInside : first < ring.trbs.length)
    (lastInside : last < ring.trbs.length) (inside : index < ring.trbs.length) :
    hits (ring.trbPhysPtr ac64 first) (ring.trbPhysPtr ac64 last)
        (ring.trbPhysPtr ac64 index) = true ↔
      Between ring.trbs.length first last index := by
  simp only [hits, trbPhysPtr_le_iff]
  by_cases ordered : first ≤ last
  · have span : (last + ring.trbs.length - first) % ring.trbs.length = last - first := by
      have moved : last + ring.trbs.length - first = last - first + ring.trbs.length := by omega
      rw [moved, add_mod_right, mod_eq_of_lt (by omega)]
    simp only [if_pos ordered, Between, span, Bool.and_eq_true, decide_eq_true_eq]
    constructor
    · rintro ⟨above, below⟩
      refine ⟨index - first, by omega, ?_⟩
      rw [mod_eq_of_lt (by omega)]
      omega
    · rintro ⟨steps, few, same⟩
      rw [mod_eq_of_lt (by omega)] at same
      omega
  · have span : (last + ring.trbs.length - first) % ring.trbs.length =
        last + ring.trbs.length - first := mod_eq_of_lt (by omega)
    simp only [if_neg ordered, Between, span, Bool.or_eq_true, decide_eq_true_eq]
    constructor
    · rintro (above | below)
      · refine ⟨index - first, by omega, ?_⟩
        rw [mod_eq_of_lt (by omega)]
        omega
      · refine ⟨index + ring.trbs.length - first, by omega, ?_⟩
        have moved : first + (index + ring.trbs.length - first) = index + ring.trbs.length := by
          omega
        rw [moved, add_mod_right, mod_eq_of_lt inside]
    · rintro ⟨steps, few, same⟩
      rcases lt_or_ge (first + steps) ring.trbs.length with straight | around
      · rw [mod_eq_of_lt straight] at same
        omega
      · rw [mod_eq_sub_mod around, mod_eq_of_lt (by omega)] at same
        omega

theorem hits_iff_wraps {other : Ring} {ac64}
    (apart : ring.trbPhysPtr ac64 ring.trbs.length ≤ other.physBase ac64 ∨
      other.trbPhysPtr ac64 other.trbs.length ≤ ring.physBase ac64)
    (firstInside : first < other.trbs.length) (lastInside : last < other.trbs.length)
    (inside : index < ring.trbs.length) :
    hits (other.trbPhysPtr ac64 first) (other.trbPhysPtr ac64 last)
        (ring.trbPhysPtr ac64 index) = true ↔
      ¬ other.trbPhysPtr ac64 first ≤ other.trbPhysPtr ac64 last := by
  simp only [Ring.trbPhysPtr, Ring.trbSize] at apart ⊢
  rw [hits]
  split
  next ordered =>
    simp only [Bool.and_eq_true, decide_eq_true_eq, ordered, not_true, iff_false]
    omega
  next wrapped =>
  simp only [Bool.or_eq_true, decide_eq_true_eq, wrapped, not_false_eq_true, iff_true]
  omega

section Event

variable (named : trb.trbPointer = some (ring.trbPhysPtr hci.ac64 index))
  (kind : trb.trbType = transfer.toUInt8) (inside : index < ring.trbs.length) {state : StateKind}

include named kind inside

theorem inspect_concerned (concerned : Concerns hci ring index state) :
    ∃ src, inspect hci trb state = some (.deliver hci.cmd (some ⟨trb, src⟩)) := by
  cases state with
  | commandCompletion | other => exact concerned.elim
  | transfer firstPhysPtr lastPhysPtr ringId =>
    obtain ⟨own, first, last, firstInside, lastInside, rfl, rfl, between⟩ := concerned
    have hit := (hits_iff_between hci.ac64 firstInside lastInside inside).mpr between
    refine ⟨ring.trbs[index]?, ?_⟩
    simp only [inspect, inspectTransfer, kind, if_true, named, hit, Hci.getTransferTrb, own,
      ring.physAddrToEntry_trbPhysPtr hci.ac64 inside, Option.map_some]

omit named inside in
theorem inspect_other (registered : Registered hci state)
    (different : ∀ first last id, state ≠ .transfer first last id) :
    inspect hci trb state = some .pass := by
  cases state with
  | commandCompletion physPtr =>
    simp only [inspect, kind, if_neg (by decide : transfer.toUInt8 ≠ commandCompletion.toUInt8)]
  | other trbType =>
    have apart : ∀ misc ∈ miscEventTrbTypes, misc.toUInt8 ≠ transfer.toUInt8 := by decide
    simp only [inspect, kind, if_neg (apart trbType registered)]
  | transfer first last id => exact absurd rfl (different first last id)

variable (known : ∃ id, hci.withRing id = some ring) (disjoint : DisjointRings hci)

include known disjoint

theorem inspect_clear (registered : Registered hci state)
    (unconcerned : ¬ Concerns hci ring index state) (clear : Clear hci ring state) :
    inspect hci trb state = some .pass := by
  cases state with
  | commandCompletion | other => exact inspect_other kind registered nofun
  | transfer firstPhysPtr lastPhysPtr ringId =>
    obtain ⟨own, found, fine⟩ := clear
    obtain ⟨first, last, firstInside, lastInside, rfl, rfl⟩ := registered own found
    have miss : hits (own.trbPhysPtr hci.ac64 first) (own.trbPhysPtr hci.ac64 last)
        (ring.trbPhysPtr hci.ac64 index) = false := by
      rw [Bool.eq_false_iff]
      intro hit
      by_cases same : own = ring
      · subst same
        have between := (hits_iff_between hci.ac64 firstInside lastInside inside).mp hit
        exact unconcerned ⟨found, first, last, firstInside, lastInside, rfl, rfl, between⟩
      obtain ⟨id, located⟩ := known
      have apart := disjoint id ringId ring own located found (Ne.symm same)
      exact (hits_iff_wraps apart firstInside lastInside inside).mp hit (fine.resolve_left same)
    simp only [inspect, inspectTransfer, kind, if_true, named, miss, Bool.false_eq_true, if_false,
      checkDead, found, Option.isNone_some]

theorem inspect_unclear (registered : Registered hci state) (unclear : ¬ Clear hci ring state) :
    inspect hci trb state = none ∨
      (∃ message, inspect hci trb state = some (.finish (some message))) ∨
      ∃ cmd message, inspect hci trb state = some (.deliver cmd (some message)) := by
  cases state with
  | commandCompletion | other => exact absurd trivial unclear
  | transfer firstPhysPtr lastPhysPtr ringId =>
    simp only [inspect, inspectTransfer, kind, if_true, named]
    cases found : hci.withRing ringId with
    | none =>
      by_cases hit : hits firstPhysPtr lastPhysPtr (ring.trbPhysPtr hci.ac64 index) = true
      · right
        right
        exact ⟨hci.cmd, ⟨trb, none⟩, by rw [if_pos hit, Hci.getTransferTrb, found]; rfl⟩
      · right
        left
        exact ⟨⟨trb, none⟩, by rw [if_neg hit, checkDead, found]; rfl⟩
    | some own =>
      have foreign : own ≠ ring := fun same => unclear ⟨own, found, .inl same⟩
      have wraps : ¬ firstPhysPtr ≤ lastPhysPtr := fun ordered =>
        unclear ⟨own, found, .inr ordered⟩
      obtain ⟨first, last, firstInside, lastInside, rfl, rfl⟩ := registered own found
      obtain ⟨id, located⟩ := known
      have apart := disjoint id ringId ring own located found (Ne.symm foreign)
      have hit := (hits_iff_wraps apart firstInside lastInside inside).mpr wraps
      rw [if_pos hit]
      cases hci.getTransferTrb (ring.trbPhysPtr hci.ac64 index) ringId with
      | none => exact .inl rfl
      | some src => exact .inr (.inr ⟨hci.cmd, ⟨trb, src⟩, rfl⟩)

theorem scan_delivered_iff {states}
    (registered : ∀ state ∈ states, Registered hci state.kind) (passed : List State) :
    (∃ outcome, scan hci trb passed states = some outcome ∧
        Delivered hci ring index states trb outcome) ↔ Unobstructed hci ring index states := by
  induction states generalizing passed with
  | nil =>
    refine iff_of_true ⟨⟨hci.cmd, passed, []⟩, rfl, nofun, ?_⟩ trivial
    rintro ⟨state, member, _⟩
    cases member
  | cons state states ih =>
    have here := registered state mem_cons_self
    have later := ih fun other member =>
      registered other (mem_cons_of_mem _ member)
    by_cases concerned : Concerns hci ring index state.kind
    · obtain ⟨src, delivered⟩ := inspect_concerned named kind inside concerned
      refine iff_of_true ?_ (.inl concerned)
      refine ⟨⟨hci.cmd, passed ++ states, [(state, some ⟨trb, src⟩)]⟩, ?_, ?_, ?_⟩
      · rw [scan, delivered]
      · intro other message member
        cases mem_singleton.mp member
        exact concerned
      · intro _
        exact ⟨state, _, mem_singleton_self _, concerned, rfl⟩
    · by_cases clear : Clear hci ring state.kind
      · have passes := inspect_clear named kind inside known disjoint here concerned clear
        have same : ∀ outcome, Delivered hci ring index (state :: states) trb outcome ↔
            Delivered hci ring index states trb outcome := by
          intro outcome
          simp only [Delivered, mem_cons, exists_eq_or_imp, concerned, false_or]
        simp only [scan, passes, same, later, Unobstructed, concerned, clear, true_and, false_or]
      · have blocked : ¬ Unobstructed hci ring index (state :: states) := by
          simp only [Unobstructed, concerned, clear, false_and, or_self, not_false_eq_true]
        refine iff_of_false ?_ blocked
        rintro ⟨outcome, scanned, only, _⟩
        rcases inspect_unclear named kind inside known disjoint here clear with
          panics | ⟨message, finishes⟩ | ⟨cmd, message, delivers⟩
        · rw [scan, panics] at scanned
          cases scanned
        · rw [scan, finishes] at scanned
          obtain ⟨rest, _, rfl⟩ := Option.map_eq_some_iff.mp scanned
          exact concerned (only state message mem_cons_self)
        · rw [scan, delivers] at scanned
          cases scanned
          exact concerned (only state message mem_cons_self)

end Event

/-- A transfer event is delivered to a transfer that it concerns, and to no other state,
exactly when no state in front of the first such transfer stands in the way. -/
theorem events_delivered_iff (disjoint : DisjointRings hci) {id : RingId}
    (known : hci.withRing id = some ring) (inside : index < ring.trbs.length)
    (named : trb.trbPointer = some (ring.trbPhysPtr hci.ac64 index))
    (kind : trb.trbType = transfer.toUInt8) {states : List State}
    (registered : ∀ state ∈ states, Registered hci state.kind) :
    (∃ outcome, acknowledge hci states trb = some outcome ∧
        Delivered hci ring index states trb outcome) ↔
      Unobstructed hci ring index states :=
  scan_delivered_iff named kind inside ⟨id, known⟩ disjoint registered []

def endpointRing (endpoint : UInt8) : RingId := ⟨⟨1, 0⟩, endpoint, 0⟩

def lowerRing : Ring := .new 4096 4 true

def upperRing : Ring := .new 8192 4 true

def twoRings : Hci where
  ac64 := true
  cmd := .new 0 4 true
  portStates := insert .empty ⟨1, 0⟩
    (insert (insert .empty 1 (.ring lowerRing)) 2 (.ring upperRing))

variable {ring : Ring}

theorem withRing_twoRings {id} (found : twoRings.withRing id = some ring) :
    ring = lowerRing ∨ ring = upperRing := by
  simp only [twoRings, Hci.withRing, get?_insert, get?_empty] at found
  split at found
  · cases found
  next endpointStates port =>
  split at port
  · cases port
    simp only [get?_insert, get?_empty] at found
    split at found
    · cases found
    next own endpoint =>
      split at endpoint
      · cases endpoint
        cases found
        exact .inr rfl
      split at endpoint
      · cases endpoint
        cases found
        exact .inl rfl
      · cases endpoint
    next rings endpoint =>
    split at endpoint
    · cases endpoint
    · split at endpoint <;> cases endpoint
  · cases port

theorem disjoint_twoRings : DisjointRings twoRings := by
  intro id otherId ring other found otherFound different
  rcases withRing_twoRings found with rfl | rfl <;>
    rcases withRing_twoRings otherFound with rfl | rfl
  · exact absurd rfl different
  · exact .inl (by decide)
  · exact .inr (by decide)
  · exact absurd rfl different

def pendingTransfer (ring : Ring) (endpoint : UInt8) (first last : Nat) : State :=
  ⟨endpoint.toNat, .transfer (ring.trbPhysPtr true first) (ring.trbPhysPtr true last)
    (endpointRing endpoint), false⟩

theorem registered_pendingTransfer {endpoint}
    (found : twoRings.withRing (endpointRing endpoint) = some ring)
    (firstInside : first < ring.trbs.length) (lastInside : last < ring.trbs.length) :
    Registered twoRings (pendingTransfer ring endpoint first last).kind := by
  intro own other
  rw [found] at other
  cases other
  exact ⟨first, last, firstInside, lastInside, rfl, rfl⟩

/-- The completion of the second TRB of the lower ring. -/
def lowerEvent : Trb := ⟨4096 + 16, 0x01000000, 32768⟩

theorem lowerEvent_named : lowerEvent.trbPointer = some (lowerRing.trbPhysPtr true 1) := by decide

theorem lowerEvent_kind : lowerEvent.trbType = transfer.toUInt8 := by decide

theorem lowerRing_known : twoRings.withRing (endpointRing 1) = some lowerRing := rfl

theorem upperRing_known : twoRings.withRing (endpointRing 2) = some upperRing := rfl

/-- A transfer of the upper ring that does not wrap lets the event through to the lower one. -/
theorem events_delivered_iff_straight :
    ∃ outcome, acknowledge twoRings [pendingTransfer upperRing 2 1 2,
        pendingTransfer lowerRing 1 0 1] lowerEvent = some outcome ∧
      Delivered twoRings lowerRing 1 [pendingTransfer upperRing 2 1 2,
        pendingTransfer lowerRing 1 0 1] lowerEvent outcome := by
  apply (events_delivered_iff disjoint_twoRings lowerRing_known (by decide) lowerEvent_named
    lowerEvent_kind ?_).mpr
  · refine .inr ⟨⟨upperRing, upperRing_known, .inr (by decide)⟩, .inl ?_⟩
    exact ⟨lowerRing_known, 0, 1, by decide, by decide, rfl, rfl, 1, by decide, by decide⟩
  · intro state member
    rcases mem_pair.mp member with rfl | rfl
    · exact registered_pendingTransfer upperRing_known (by decide) (by decide)
    · exact registered_pendingTransfer lowerRing_known (by decide) (by decide)

/-- A transfer that wraps around the end of the upper ring gets the event of the lower one. -/
theorem wrapped_transfer_intercepts :
    DisjointRings twoRings ∧ twoRings.withRing (endpointRing 1) = some lowerRing ∧
      lowerEvent.trbPointer = some (lowerRing.trbPhysPtr true 1) ∧
      (∀ state ∈ [pendingTransfer upperRing 2 3 0, pendingTransfer lowerRing 1 0 1],
        Registered twoRings state.kind) ∧
      ¬ ∃ outcome, acknowledge twoRings [pendingTransfer upperRing 2 3 0,
          pendingTransfer lowerRing 1 0 1] lowerEvent = some outcome ∧
        Delivered twoRings lowerRing 1 [pendingTransfer upperRing 2 3 0,
          pendingTransfer lowerRing 1 0 1] lowerEvent outcome := by
  refine ⟨disjoint_twoRings, lowerRing_known, lowerEvent_named, ?_, ?_⟩
  · intro state member
    rcases mem_pair.mp member with rfl | rfl
    · exact registered_pendingTransfer upperRing_known (by decide) (by decide)
    · exact registered_pendingTransfer lowerRing_known (by decide) (by decide)
  · rintro ⟨outcome, acknowledged, only, _⟩
    have finished : ∃ message, (pendingTransfer upperRing 2 3 0, some message) ∈
        outcome.finished := by
      cases acknowledged
      exact ⟨_, mem_cons_self⟩
    obtain ⟨message, member⟩ := finished
    obtain ⟨own, _⟩ := only _ _ member
    exact absurd (congrArg Ring.physical (Option.some_inj.mp own)) (by decide)

end EosBase.Xhci
