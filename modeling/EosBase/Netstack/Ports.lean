import EosBase.Lib.Transition
import EosBase.Netstack.PortSet
import Mathlib.Logic.Function.Basic

/-!
# Ports are exclusive

The holders of a port are those that got, claimed or acquired it and have not released
it since.  A sequence of operations treats the ports as exclusive exactly when each
`get_port` in it is fair: either the set counts as full and every port of the range is
held, or the range starts at port 0, where offsets and ports are the same, and the
search meets a free port of the range before one above it.
-/

namespace EosBase.Netstack

open UInt16 PortSet Function Option

inductive Operation where
  | getPort
  | claimPort (port : UInt16)
  | acquirePort (port : UInt16)
  | releasePort (port : UInt16)

inductive Reply where
  | port (found : Option UInt16)
  | claimed (success : Bool)
  | done

structure Ports where
  set : PortSet
  holders : UInt16 → Nat

namespace Ports

def hold (this : Ports) (set : PortSet) (port : UInt16) : Ports :=
  ⟨set, update this.holders port (this.holders port + 1)⟩

def unhold (this : Ports) (set : PortSet) (port : UInt16) : Ports :=
  ⟨set, update this.holders port (this.holders port - 1)⟩

def perform (this : Ports) : Operation → Option (Ports × Reply)
  | .getPort =>
    match this.set.getPort with
    | some (set, some port) => some (this.hold set port, .port (some port))
    | some (set, none) => some (⟨set, this.holders⟩, .port none)
    | none => none
  | .claimPort port =>
    match this.set.claimPort port with
    | (set, true) => some (this.hold set port, .claimed true)
    | (set, false) => some (⟨set, this.holders⟩, .claimed false)
  | .acquirePort port => some (this.hold (this.set.acquirePort port) port, .done)
  | .releasePort port =>
    (this.set.releasePort port).map fun set => (this.unhold set port, .done)

end Ports

def ports (set : PortSet) : System Ports Operation Reply where
  start := ⟨set, fun _ => 0⟩
  step this operation := replied (this.perform operation)

def Matched (state : Ports) : Operation → Prop
  | .releasePort port => 0 < state.holders port
  | _ => True

instance (state : Ports) (operation : Operation) : Decidable (Matched state operation) := by
  unfold Matched
  split <;> infer_instance

/-- A port can be claimed exactly when it has no holder. -/
def Truthful (state : Ports) : Prop :=
  ∀ port, (state.set.claimPort port).2 = true ↔ state.holders port = 0

variable {fromPort toPort : UInt16}

def Answers (fromPort toPort : UInt16) (state : Ports) : Operation → Reply → Prop
  | .getPort, .port (some port) => fromPort ≤ port ∧ port ≤ toPort ∧ state.holders port = 0
  | .getPort, .port none => ∀ port, fromPort ≤ port → port ≤ toPort → 0 < state.holders port
  | .claimPort port, .claimed success => success = true ↔ state.holders port = 0
  | .acquirePort _, .done => True
  | .releasePort _, .done => True
  | _, _ => False

/-- An operation returns with a proper answer, and the ports can be claimed that have no
holder then. -/
def Right (fromPort toPort : UInt16) (state : Ports) (operation : Operation) : Prop :=
  ∃ after reply, state.perform operation = some (after, reply) ∧
    Answers fromPort toPort state operation reply ∧ Truthful after

/-- `get_port` is called in a full set whose range is held, or from port 0 on, where the
search meets a free port of the range before it meets one above the range. -/
def Fair (fromPort toPort : UInt16) (state : Ports) : Operation → Prop
  | .getPort =>
    if state.set.range.toNat ≤ state.set.len then
      ∀ port, fromPort ≤ port → port ≤ toPort → 0 < state.holders port
    else
      fromPort = 0 ∧
        ((∃ port, state.set.next ≤ port ∧ port ≤ toPort ∧ state.holders port = 0) ∨
          ∀ port, state.set.next ≤ port → 0 < state.holders port)
  | _ => True

structure Faithful (fromPort toPort : UInt16) (state : Ports) : Prop where
  first : state.set.fromPort = fromPort
  size : fromPort.toNat + state.set.range.toNat = toPort.toNat + 1
  counts : ∀ port, state.set.ports.get? port =
    if state.holders port = 0 then none else some (state.holders port)

variable {set : PortSet} {state : Ports}

namespace Faithful

section

variable (faithful : Faithful fromPort toPort state) {port : UInt16}

include faithful

theorem get?_eq_none_iff : state.set.ports.get? port = none ↔ state.holders port = 0 := by
  rw [faithful.counts]
  split
  next free => simp only [free]
  next held => simp only [held, reduceCtorEq]

theorem get?_ne_none_iff : state.set.ports.get? port ≠ none ↔ 0 < state.holders port := by
  rw [Ne, faithful.get?_eq_none_iff, Nat.pos_iff_ne_zero]

theorem truthful : Truthful state := by
  intro port
  rw [claimPort_eq_true_iff, faithful.get?_eq_none_iff]

section

variable (first : set.fromPort = state.set.fromPort)

include first

theorem recount {count} (range : set.range = state.set.range)
    (entries : ∀ other, set.ports.get? other =
      if other = port then if count = 0 then none else some count else state.set.ports.get? other) :
    Faithful fromPort toPort ⟨set, update state.holders port count⟩ := by
  refine ⟨first.trans faithful.first, (congrArg (_ + ·.toNat) range).trans faithful.size, ?_⟩
  intro other
  simp only [entries]
  by_cases same : other = port
  · subst same
    rw [if_pos rfl, update_self]
  · rw [if_neg same, update_of_ne same]
    exact faithful.counts other

theorem hold (range : set.range = state.set.range)
    (entered : set.ports = state.set.ports.insert port (state.holders port + 1)) :
    Faithful fromPort toPort (state.hold set port) := by
  apply faithful.recount first range
  intro other
  rw [entered, Table.get?_insert, if_neg (Nat.succ_ne_zero _)]

end

theorem unhold (held : 0 < state.holders port) : ∃ set, state.set.releasePort port = some set ∧
      Faithful fromPort toPort (state.unhold set port) := by
  have entry := faithful.counts port
  rw [if_neg held.ne'] at entry
  obtain ⟨rest, more⟩ := Nat.exists_eq_succ_of_ne_zero held.ne'
  rw [more] at entry
  have fewer : state.holders port - 1 = rest := by rw [more, Nat.succ_sub_one]
  cases rest with
  | zero =>
    refine ⟨{ state.set with ports := state.set.ports.erase port }, ?_, ?_⟩
    · simp only [releasePort, entry]
    · refine faithful.recount ?_ ?_ fun other => ?_
      · rfl
      · rfl
      · rw [Table.get?_erase, fewer, if_pos rfl]
  | succ rest =>
    refine ⟨{ state.set with ports := state.set.ports.insert port (rest + 1) }, ?_, ?_⟩
    · simp only [releasePort, entry]
    · refine faithful.recount ?_ ?_ fun other => ?_
      · rfl
      · rfl
      · rw [Table.get?_insert, fewer, if_neg (Nat.succ_ne_zero rest)]

end

end Faithful

/-- The first vacant key from `next` on and around lies in a range that starts at port 0
exactly when no free port above the range comes first. -/
theorem firstVacant_le_iff (faithful : Faithful 0 toPort state)
    (room : state.set.len < state.set.range.toNat) {distance} (small : distance < 2 ^ 16)
    (occupied : ∀ earlier < distance, state.set.ports.get? (state.set.next + ofNat earlier) ≠ none)
    (vacant : state.set.ports.get? (state.set.next + ofNat distance) = none) :
    state.set.next + ofNat distance ≤ toPort ↔
      (∃ port, state.set.next ≤ port ∧ port ≤ toPort ∧ state.holders port = 0) ∨
        ∀ port, state.set.next ≤ port → 0 < state.holders port := by
  have key : (state.set.next + ofNat distance).toNat =
      (state.set.next.toNat + distance) % 2 ^ 16 := by
    rw [UInt16.toNat_add, UInt16.toNat_ofNat_of_lt' small]
  have nextBound := state.set.next.toNat_lt
  -- a free port is not passed over, whether the search comes to it at once or goes around
  have reached : ∀ (port : UInt16) (steps : Nat), steps < 2 ^ 16 →
      (state.set.next.toNat + steps) % 2 ^ 16 = port.toNat → state.holders port = 0 →
      distance ≤ steps := by
    intro port steps fewer same free
    by_contra later
    have passed := occupied steps (Nat.not_le.mp later)
    apply passed
    apply (faithful.get?_eq_none_iff).mpr
    have equal : state.set.next + UInt16.ofNat steps = port := by
      apply UInt16.toNat_inj.mp
      rw [UInt16.toNat_add, UInt16.toNat_ofNat_of_lt' fewer, same]
    rw [equal]
    exact free
  constructor
  · intro inRange
    rw [le_iff_toNat_le, key] at inRange
    by_cases around : state.set.next.toNat + distance < 2 ^ 16
    · left
      refine ⟨_, ?_, ?_, (faithful.get?_eq_none_iff).mp vacant⟩
      · rw [le_iff_toNat_le, key, Nat.mod_eq_of_lt around]
        exact Nat.le_add_right _ _
      · rw [le_iff_toNat_le, key]
        exact inRange
    · right
      intro port above
      by_contra notHeld
      rw [le_iff_toNat_le] at above
      have portBound := port.toNat_lt
      have met := reached port (port.toNat - state.set.next.toNat) (by omega) (by omega) (by omega)
      omega
  · intro condition
    rw [le_iff_toNat_le, key]
    rcases condition with ⟨port, above, below, free⟩ | held
    · rw [le_iff_toNat_le] at above below
      have portBound := port.toNat_lt
      have met := reached port (port.toNat - state.set.next.toNat) (by omega) (by omega) free
      omega
    · have size := faithful.size
      obtain ⟨port, below, free⟩ := state.set.exists_vacant state.set.range.toNat_lt.le room
      rw [faithful.get?_eq_none_iff] at free
      have before : port.toNat < state.set.next.toNat := by
        by_contra above
        have counted := held port (le_iff_toNat_le.mpr (Nat.not_lt.mp above))
        omega
      have met := reached port (port.toNat + 2 ^ 16 - state.set.next.toNat) (by omega) (by omega)
      have wrapped : 2 ^ 16 ≤ state.set.next.toNat + distance := by
        by_contra straight
        have found := (faithful.get?_eq_none_iff).mp vacant
        have counted := held (state.set.next + ofNat distance) (by
          rw [le_iff_toNat_le, key]
          omega)
        omega
      omega

theorem getPort_full (full : state.set.range.toNat ≤ state.set.len) :
    state.perform .getPort = some (state, .port none) := by
  rw [Ports.perform, getPort, if_pos full]

/-- From port 0 on, `get_port` enters the port that it returns. -/
theorem getPort_room (faithful : Faithful 0 toPort state)
    (room : state.set.len < state.set.range.toNat) :
    ∃ after port, state.perform .getPort = some (after, .port (some port)) ∧
      state.holders port = 0 ∧ Faithful 0 toPort after ∧
      (port ≤ toPort ↔ Fair 0 toPort state .getPort) := by
  obtain ⟨distance, small, occupied, vacant, found⟩ := state.set.getPort_eq room
  have free := (faithful.get?_eq_none_iff).mp vacant
  have inRange := firstVacant_le_iff faithful room small occupied vacant
  have taken : take { state.set with next := state.set.next + ofNat distance } =
      some ({ state.set with
          ports := state.set.ports.insert (state.set.next + ofNat distance) 1,
          next := state.set.next + UInt16.ofNat distance + 1 },
        state.set.next + UInt16.ofNat distance) := by
    have fits := (state.set.next + UInt16.ofNat distance).toNat_lt
    simp only [take, faithful.first, UInt16.toNat_zero, Nat.zero_add, fits, if_true,
      UInt16.zero_add]
  rw [taken, map_some] at found
  refine ⟨_, _, by rw [Ports.perform, found], free, ?_, ?_⟩
  · refine faithful.hold ?_ ?_ ?_
    · rfl
    · rfl
    · rw [free]
  · rw [inRange, Fair, if_neg (Nat.not_le.mpr room)]
    simp only [true_and]

section

variable (faithful : Faithful fromPort toPort state) {reply : Reply} {after : Ports}
  {operation : Operation}

include faithful

/-- From a later port on, `get_port` enters another port than the one that it returns. -/
theorem getPort_offset (later : fromPort ≠ 0) (room : state.set.len < state.set.range.toNat)
    (performed : state.perform .getPort = some (after, reply)) : ¬ Truthful after := by
  intro truthful
  obtain ⟨distance, small, occupied, vacant, found⟩ := state.set.getPort_eq room
  have free := (faithful.get?_eq_none_iff).mp vacant
  simp only [take, faithful.first] at found
  split at found
  · rw [Ports.perform, found] at performed
    cases performed
    have claimed := truthful (state.set.next + ofNat distance)
    rw [claimPort_eq_true_iff] at claimed
    have other : state.set.next + ofNat distance ≠
        fromPort + (state.set.next + ofNat distance) := by
      intro same
      exact later (UInt16.right_eq_add.mp same)
    simp only [Ports.hold, Table.get?_insert_self, update_of_ne other, free] at claimed
    exact absurd (claimed.mpr trivial) nofun
  · rw [Ports.perform, found] at performed
    cases performed

theorem getPort_right_iff :
    Right fromPort toPort state .getPort ↔ Fair fromPort toPort state .getPort := by
  by_cases full : state.set.range.toNat ≤ state.set.len
  · have performed := getPort_full full
    rw [Fair, if_pos full]
    constructor
    · rintro ⟨after, reply, same, answered, _⟩
      rw [performed] at same
      cases same
      exact answered
    · intro held
      exact ⟨_, _, performed, held, faithful.truthful⟩
  · have room := Nat.not_le.mp full
    by_cases zero : fromPort = 0
    · subst zero
      obtain ⟨next, port, performed, free, kept, inRange⟩ := getPort_room faithful room
      rw [← inRange]
      constructor
      · rintro ⟨after, reply, same, answered, _⟩
        rw [performed] at same
        cases same
        exact answered.2.1
      · intro below
        exact ⟨_, _, performed, ⟨UInt16.zero_le, below, free⟩, kept.truthful⟩
    · constructor
      · rintro ⟨after, reply, performed, _, truthful⟩
        exact absurd truthful (getPort_offset faithful zero room performed)
      · intro fair
        rw [Fair, if_neg full] at fair
        exact absurd fair.1 zero

section

variable (matched : Matched state operation)

include matched

/-- An operation other than `get_port` is right, and keeps the counts. -/
theorem perform_right (different : operation ≠ .getPort) :
    ∃ after reply, state.perform operation = some (after, reply) ∧
      Answers fromPort toPort state operation reply ∧ Faithful fromPort toPort after := by
  cases operation with
  | getPort => exact absurd rfl different
  | claimPort port =>
    cases entry : state.set.ports.get? port with
    | none =>
      have free := (faithful.get?_eq_none_iff).mp entry
      have performed : state.perform (.claimPort port) = some (state.hold
          { state.set with ports := state.set.ports.insert port 1 } port, .claimed true) := by
        simp only [Ports.perform, claimPort, entry]
      refine ⟨_, _, performed, by simp only [Answers, free], ?_⟩
      refine faithful.hold ?_ ?_ ?_
      · rfl
      · rfl
      · rw [free]
    | some count =>
      have held := (faithful.get?_ne_none_iff).mp (by rw [entry]; exact nofun)
      refine ⟨state, .claimed false, by simp only [Ports.perform, claimPort, entry], ?_, faithful⟩
      simp only [Answers, Bool.false_eq_true, held.ne']
  | acquirePort port =>
    refine ⟨_, _, rfl, trivial, ?_⟩
    refine faithful.hold ?_ ?_ ?_
    · rfl
    · rfl
    · rw [acquirePort, faithful.counts]
      by_cases free : state.holders port = 0
      · rw [free, if_pos rfl, getD_none]
      · rw [if_neg free, getD_some]
  | releasePort port =>
    obtain ⟨set, released, kept⟩ := faithful.unhold matched
    refine ⟨state.unhold set port, .done, ?_, trivial, kept⟩
    rw [Ports.perform, released, map_some]

theorem right_iff_fair :
    Right fromPort toPort state operation ↔ Fair fromPort toPort state operation := by
  by_cases getting : operation = .getPort
  · subst getting
    exact getPort_right_iff faithful
  obtain ⟨after, reply, performed, answered, kept⟩ := perform_right faithful matched getting
  have right : Right fromPort toPort state operation :=
    ⟨after, reply, performed, answered, kept.truthful⟩
  refine iff_of_true right ?_
  cases operation with
  | getPort => exact absurd rfl getting
  | claimPort port | acquirePort port | releasePort port => trivial

theorem fair_faithful (fair : Fair fromPort toPort state operation)
    (performed : state.perform operation = some (after, reply)) :
    Faithful fromPort toPort after := by
  by_cases getting : operation = .getPort
  · subst getting
    by_cases full : state.set.range.toNat ≤ state.set.len
    · rw [getPort_full full] at performed
      cases performed
      exact faithful
    rw [Fair, if_neg full] at fair
    obtain ⟨rfl, _⟩ := fair
    obtain ⟨next, port, same, _, kept, _⟩ := getPort_room faithful (Nat.not_le.mp full)
    rw [same] at performed
    cases performed
    exact kept
  · obtain ⟨next, answer, same, _, kept⟩ := perform_right faithful matched getting
    rw [same] at performed
    cases performed
    exact kept

end

end

theorem faithful_new (created : new fromPort toPort = some (some set)) :
    Faithful fromPort toPort (ports set).start := by
  unfold new at created
  split at created
  · cases created
  split at created
  next ordered fits =>
    cases created
    rw [UInt16.not_lt, UInt16.le_iff_toNat_le] at ordered
    refine ⟨rfl, ?_, fun port => ?_⟩
    · have difference := UInt16.toNat_sub_of_le toPort fromPort (UInt16.le_iff_toNat_le.mpr ordered)
      simp only [ports, UInt16.toNat_add, UInt16.toNat_one, Nat.mod_eq_of_lt fits]
      omega
    · rfl
  · cases created

/-- The ports of a set are exclusive along a sequence of operations exactly when every
`get_port` of the sequence is fair. -/
theorem ports_exclusive_iff {set : PortSet}
    (created : new fromPort toPort = some (some set)) {operations : List Operation}
    (matched : (ports set).Along Matched (ports set).start operations) :
    (Truthful (ports set).start ∧
        (ports set).Along (Right fromPort toPort) (ports set).start operations) ↔
      (ports set).Along (Fair fromPort toPort) (ports set).start operations := by
  have faithful := faithful_new created
  rw [and_iff_right faithful.truthful]
  have kept : ∀ state operation next output, Faithful fromPort toPort state →
      Matched state operation → Fair fromPort toPort state operation →
      (ports set).step state operation = some (next, output) → Faithful fromPort toPort next := by
    intro state operation next output before permitted fair stepped
    obtain ⟨reply, _, performed⟩ := of_replied stepped
    exact fair_faithful before permitted fair performed
  exact System.along_iff (fun _ _ before permitted => right_iff_fair before permitted) kept
    faithful matched

/-- A set of the ports from 0 on, which is fairly used. -/
theorem ports_exclusive_iff_from_zero : ∃ set, new 0 9 = some (some set) ∧
      (ports set).Along Matched (ports set).start [.getPort, .claimPort 80, .releasePort 80] ∧
      (Truthful (ports set).start ∧ (ports set).Along (Right 0 9) (ports set).start
        [.getPort, .claimPort 80, .releasePort 80]) := by
  have created : new 0 9 = some (some ⟨0, 10, 0, .empty⟩) := by decide
  have matched : (ports ⟨0, 10, 0, .empty⟩).Along Matched (ports ⟨0, 10, 0, .empty⟩).start
      [.getPort, .claimPort 80, .releasePort 80] := by decide +kernel
  refine ⟨_, created, matched, (ports_exclusive_iff created matched).mpr ?_⟩
  have fair : Fair 0 9 (ports ⟨0, 10, 0, .empty⟩).start .getPort :=
    ⟨rfl, .inl ⟨0, by decide, by decide, rfl⟩⟩
  exact ⟨fair, trivial, trivial, trivial⟩

/-- The set of the TCP scheme: a port that was got can be claimed while it is held. -/
theorem ephemeral_port_claimed_while_held : ∃ set, new 49152 65535 = some (some set) ∧
      (ports set).Along Matched (ports set).start [.getPort] ∧
      ¬ (Truthful (ports set).start ∧
        (ports set).Along (Right 49152 65535) (ports set).start [.getPort]) := by
  refine ⟨⟨49152, 16384, 0, .empty⟩, by decide, by decide +kernel, ?_⟩
  rintro ⟨_, ⟨after, reply, performed, _, truthful⟩, _⟩
  cases performed
  have held := (truthful 49152).mp (by decide)
  exact absurd held (by decide)

end EosBase.Netstack
