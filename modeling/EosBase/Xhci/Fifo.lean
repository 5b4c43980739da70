import EosBase.Lib.RingLog
import EosBase.Lib.Transition
import EosBase.Xhci.Ring

/-!
# A link ring is a queue

The driver fills in TRBs and the controller consumes them, each at its own pace.  The
slots before the link TRB are a ring whose log is the list of the filled TRBs, with the
cycle bit as the bit of the lap.  The producer and the consumer are at the same place of
the ring when they have passed the same number of TRBs, except that the consumer may
already have followed the link.
-/

namespace EosBase.Xhci

open List Xhci.Ring

/-- The controller's dequeue pointer and its cycle state. -/
structure Consumer where
  pointer : Nat
  cycle : Bool

inductive Move where
  | stop
  | follow (after : Consumer)
  | observe (trb : Trb) (after : Consumer)

/-- The controller stops at a TRB whose cycle bit is not its own, and follows links. -/
def Consumer.move (this : Consumer) (ring : Ring) : Move :=
  match ring.trbs[(this.pointer - ring.physical) / trbSize]? with
  | none => .stop
  | some trb =>
    if trb.cycle ≠ this.cycle then .stop
    else if trb.trbType = TrbType.link.toUInt8 then
      .follow ⟨trb.data.toNat, this.cycle ^^ trb.toggle⟩
    else
      .observe trb ⟨this.pointer + trbSize, this.cycle⟩

def Consumer.drainRound (ring : Ring) (state : List Trb × Consumer) :
    Turn (List Trb × Consumer) (List Trb × Consumer) :=
  match state.2.move ring with
  | .stop => .done state
  | .follow after => .again (state.1, after)
  | .observe trb after => .again (state.1 ++ [trb], after)

def Consumer.drain (this : Consumer) (ring : Ring) (rounds : Nat) : Option (List Trb × Consumer) :=
  loop (drainRound ring) rounds ([], this)

structure Exchange where
  ring : Ring
  consumer : Consumer
  filled : List Trb
  observed : List Trb

inductive ExchangeEvent where
  | fill (trb : Trb)
  | consume

def Exchange.consume (this : Exchange) : Exchange :=
  match this.consumer.move this.ring with
  | .stop => this
  | .follow after => { this with consumer := after }
  | .observe trb after => { this with consumer := after, observed := this.observed ++ [trb] }

def Exchange.step (this : Exchange) : ExchangeEvent → Option (Exchange × Option Unit)
  | .fill trb =>
    this.ring.next.map fun (ring, index, _) =>
      ({ this with ring := ring.fill index trb, filled := this.filled ++ [trb] }, none)
  | .consume => some (this.consume, none)

/-- A new link ring, which the controller reads from its first slot on. -/
def exchange (physical length : Nat) : System Exchange ExchangeEvent Unit where
  start := ⟨.new physical length true, ⟨physical, true⟩, [], []⟩
  step := Exchange.step

/-- A TRB that is not a link is filled in with the cycle bit that `next` returned, and
leaves at most `n - 2` TRBs outstanding in a ring of `n` slots. -/
def Proper (state : Exchange) : ExchangeEvent → Prop
  | .fill trb =>
    (state.ring.next.map fun found => found.2.2) = some trb.cycle ∧
      trb.trbType ≠ TrbType.link.toUInt8 ∧
      state.filled.length + 1 + 2 ≤ state.observed.length + state.ring.trbs.length
  | .consume => True

instance (state : Exchange) (event : ExchangeEvent) : Decidable (Proper state event) := by
  unfold Proper
  split <;> infer_instance

/-- The slot and the cycle of a side that has passed so many TRBs. -/
def place (size : Nat) : Nat → Nat × Bool
  | 0 => (0, true)
  | count + 1 => (count % size + 1, phase size count)

variable {count size : Nat}

theorem place_inside (inside : count % size ≠ 0 ∨ count = 0) :
    place size count = (count % size, phase size count) := by
  cases count with
  | zero => rw [place, Nat.zero_mod, phase_zero]
  | succ count =>
    have away := inside.resolve_right (Nat.succ_ne_zero count)
    rw [place, succ_mod away, phase_succ away]

theorem place_wrap (nonempty : 0 < size) (positive : 0 < count)
    (start : count % size = 0) : place size count = (size, !phase size count) := by
  cases count with
  | zero => exact absurd positive (Nat.lt_irrefl 0)
  | succ count =>
    have small := Nat.mod_lt count nonempty
    have last : count % size + 1 = size := by
      by_contra notLast
      have further : (count + 1) % size = count % size + 1 := by
        rw [Nat.add_mod, Nat.mod_eq_of_lt (by omega : 1 < size), Nat.mod_eq_of_lt (by omega)]
      omega
    rw [place, last, phase_succ_of_mod start, Bool.not_not]

def standing (physical size count : Nat) : Consumer :=
  ⟨physical + trbSize * (place size count).1, (place size count).2⟩

variable {physical : Nat}

theorem page_standing (page : 16 ∣ physical) : 16 ∣ (standing physical size count).pointer :=
  Nat.dvd_add page (Nat.dvd_mul_right 16 _)

/-- The link TRB was written in the last lap that is over. -/
def linkTrb (physical size filled : Nat) : Trb :=
  if filled ≤ size then .zeroed else .link physical true (!phase size (filled - 1))

theorem linkTrb_succ {filled} (nonempty : 0 < size) (inside : filled % size ≠ 0 ∨ filled = 0) :
    linkTrb physical size (filled + 1) = linkTrb physical size filled := by
  have notFull : filled ≠ size := by
    rintro rfl
    rw [Nat.mod_self] at inside
    omega
  rw [linkTrb, linkTrb]
  by_cases first : filled ≤ size
  · rw [if_pos first, if_pos (by omega)]
  · obtain ⟨last, rfl⟩ := Nat.exists_eq_succ_of_ne_zero (by omega : filled ≠ 0)
    rw [if_neg first, if_neg (by omega), Nat.add_sub_cancel, Nat.succ_sub_one,
      phase_succ (inside.resolve_right (Nat.succ_ne_zero last))]

structure Aligned (physical size : Nat) (state : Exchange) : Prop where
  links : state.ring.link = true
  base : state.ring.physical = physical
  slots : state.ring.trbs.length = size + 1
  producer : (state.ring.i, state.ring.cycle) = place size state.filled.length
  log : RingLog size (fun _ => .zeroed) state.filled fun index => state.ring.trbs[index]?
  cycles : ∀ (position : Nat) (trb : Trb), state.filled[position]? = some trb →
    trb.cycle = phase size position
  payload : ∀ (position : Nat) (trb : Trb), state.filled[position]? = some trb →
    trb.trbType ≠ TrbType.link.toUInt8
  linkSlot : state.ring.trbs[size]? = some (linkTrb physical size state.filled.length)
  seen : state.observed = state.filled.take state.observed.length
  behind : state.observed.length ≤ state.filled.length
  near : state.filled.length < state.observed.length + size
  consumer : state.consumer = standing physical size state.observed.length ∨
    state.observed.length % size = 0 ∧ state.observed.length < state.filled.length ∧
      state.consumer = ⟨physical, phase size state.observed.length⟩

variable {state : Exchange}

theorem aligned_start (more : 0 < size) :
    Aligned physical size (exchange physical (size + 1)).start where
  links := rfl
  base := rfl
  slots := length_replicate
  producer := rfl
  log := RingLog.start fun index small =>
    getElem?_replicate_of_lt (Nat.lt_succ_of_lt small)
  cycles := nofun
  payload := nofun
  linkSlot := getElem?_replicate_of_lt (Nat.lt_succ_self size)
  seen := rfl
  behind := le_rfl
  near := by simpa [exchange] using more
  consumer := .inl rfl

theorem trbs_index {ring : Ring} {index} :
    (ring.physical + trbSize * index - ring.physical) / trbSize = index := by
  rw [Nat.add_sub_cancel_left, Nat.mul_div_cancel_left _ (by decide)]

namespace Aligned

variable (aligned : Aligned physical size state) (nonempty : 0 < size)

include aligned nonempty

/-- In front of the slot of the next TRB, the controller observes that TRB, or stops when
there is none yet. -/
theorem move_slot {consumer : Consumer}
    (pointer : consumer.pointer = physical + trbSize * (state.observed.length % size))
    (cycle : consumer.cycle = phase size state.observed.length) :
    (state.observed.length = state.filled.length ∧ consumer.move state.ring = .stop) ∨
      ∃ trb, state.filled[state.observed.length]? = some trb ∧
        consumer.move state.ring =
          .observe trb (standing physical size (state.observed.length + 1)) := by
  obtain ⟨trb, found, fresh, next⟩ :=
    aligned.log.read (fun _ => (by decide : Trb.zeroed.cycle = false)) aligned.cycles nonempty
      aligned.behind aligned.near.le
  have looked : state.ring.trbs[(consumer.pointer - state.ring.physical) / trbSize]? =
      some trb := by
    rw [pointer, ← aligned.base, trbs_index]
    exact found
  simp only [Consumer.move, looked, cycle]
  by_cases more : state.observed.length < state.filled.length
  · right
    refine ⟨trb, next more, ?_⟩
    rw [if_neg (not_not.mpr (fresh.mpr more)), if_neg (aligned.payload _ trb (next more)), pointer]
    rfl
  · left
    exact ⟨Nat.le_antisymm aligned.behind (Nat.not_lt.mp more), if_pos (mt fresh.mp more)⟩

/-- In front of the link slot, the controller follows the link, or stops when no TRB was
filled in behind it. -/
theorem move_link (fits : physical < 2 ^ 64) (positive : 0 < state.observed.length)
    (start : state.observed.length % size = 0)
    (here : state.consumer = standing physical size state.observed.length) :
    (state.observed.length = state.filled.length ∧ state.consumer.move state.ring = .stop) ∨
      (state.observed.length < state.filled.length ∧ state.consumer.move state.ring =
        .follow ⟨physical, phase size state.observed.length⟩) := by
  have standingHere : standing physical size state.observed.length =
      ⟨physical + trbSize * size, !phase size state.observed.length⟩ := by
    rw [standing, place_wrap nonempty positive start]
  have looked : state.ring.trbs[(physical + trbSize * size - state.ring.physical) /
      trbSize]? = some (linkTrb physical size state.filled.length) := by
    rw [← aligned.base, trbs_index, aligned.base]
    exact aligned.linkSlot
  have behind := aligned.behind
  have near := aligned.near
  have whole : size ≤ state.observed.length :=
    Nat.le_of_dvd positive (Nat.dvd_of_mod_eq_zero start)
  simp only [here, standingHere, Consumer.move, looked]
  by_cases more : state.observed.length < state.filled.length
  · right
    -- the last filled TRB is in the lap that the controller is about to enter
    have sameLap : phase size (state.filled.length - 1) = phase size state.observed.length := by
      obtain ⟨lap, exactly⟩ := Nat.dvd_of_mod_eq_zero start
      have division : (state.filled.length - 1) / size = lap := by
        apply Nat.div_eq_of_lt_le
        · rw [Nat.mul_comm]
          omega
        · rw [Nat.succ_mul, Nat.mul_comm]
          omega
      rw [phase, phase, division, exactly, Nat.mul_div_cancel_left _ nonempty]
    have written : linkTrb physical size state.filled.length =
        .link physical true (!phase size state.observed.length) := by
      rw [linkTrb, if_neg (by omega : ¬ state.filled.length ≤ size), sameLap]
    rw [written]
    refine ⟨more, ?_⟩
    rw [if_neg (by rw [Trb.cycle_link]; exact not_not.mpr rfl), if_pos (Trb.trbType_link ..),
      Trb.toggle_link]
    simp only [Trb.link, UInt64.toNat_ofNat_of_lt' fits, Bool.xor_true, Bool.not_not]
  · left
    have all : state.observed.length = state.filled.length := by omega
    refine ⟨all, if_pos ?_⟩
    rw [linkTrb]
    split
    next first =>
      have once : state.observed.length = 0 + size := by omega
      rw [once, phase_add_size nonempty, phase_zero]
      decide
    next later =>
    rw [Trb.cycle_link, all]
    intro same
    obtain ⟨last, exactly⟩ := Nat.exists_eq_succ_of_ne_zero positive.ne'
    rw [exactly] at start
    rw [← all, exactly, Nat.succ_sub_one, phase_succ_of_mod start] at same
    simp at same

/-- The controller stops where the producer is, observes the next TRB, or follows the link
in front of it. -/
theorem move_cases (fits : physical < 2 ^ 64) : (state.observed.length = state.filled.length ∧
      state.consumer = standing physical size state.observed.length ∧
      state.consumer.move state.ring = .stop) ∨
    (∃ trb, state.filled[state.observed.length]? = some trb ∧ state.consumer.move state.ring =
        .observe trb (standing physical size (state.observed.length + 1))) ∨
    (state.consumer = standing physical size state.observed.length ∧
      state.observed.length % size = 0 ∧ state.observed.length < state.filled.length ∧
      0 < state.observed.length ∧ state.consumer.move state.ring =
        .follow ⟨physical, phase size state.observed.length⟩) := by
  rcases aligned.consumer with here | ⟨start, more, followed⟩
  · by_cases wrap : 0 < state.observed.length ∧ state.observed.length % size = 0
    · rcases aligned.move_link nonempty fits wrap.1 wrap.2 here with ⟨all, stops⟩ | ⟨more, follows⟩
      · exact .inl ⟨all, here, stops⟩
      · exact .inr (.inr ⟨here, wrap.2, more, wrap.1, follows⟩)
    have inside : state.observed.length % size ≠ 0 ∨ state.observed.length = 0 := by omega
    have slot := place_inside inside
    have pointer : state.consumer.pointer =
        physical + trbSize * (state.observed.length % size) := by
      rw [here, standing, slot]
    have cycle : state.consumer.cycle = phase size state.observed.length := by
      rw [here, standing, slot]
    rcases aligned.move_slot nonempty pointer cycle with ⟨all, stops⟩ | observes
    · exact .inl ⟨all, here, stops⟩
    · exact .inr (.inl observes)
  · have pointer : state.consumer.pointer =
        physical + trbSize * (state.observed.length % size) := by
      rw [followed, start, Nat.mul_zero, Nat.add_zero]
    have cycle : state.consumer.cycle = phase size state.observed.length := by rw [followed]
    rcases aligned.move_slot nonempty pointer cycle with ⟨all, _⟩ | observes
    · exact absurd more (by omega)
    · exact .inr (.inl observes)

/-- `next` returns the slot of the next TRB and the cycle bit of its lap. -/
theorem next_place : ∃ ring, state.ring.next =
      some (ring, state.filled.length % size, phase size state.filled.length) ∧
    ring.link = true ∧ ring.physical = physical ∧ ring.trbs.length = size + 1 ∧
    (ring.i, ring.cycle) = place size (state.filled.length + 1) ∧
    (∀ index < size, ring.trbs[index]? = state.ring.trbs[index]?) ∧
    ring.trbs[size]? = some (linkTrb physical size (state.filled.length + 1)) := by
  have producer := aligned.producer
  have small := Nat.mod_lt state.filled.length nonempty
  by_cases wrap : 0 < state.filled.length ∧ state.filled.length % size = 0
  · obtain ⟨positive, start⟩ := wrap
    rw [place_wrap nonempty positive start] at producer
    obtain ⟨index, cycle⟩ := Prod.mk.injEq .. ▸ producer
    have last : state.ring.i + 1 = state.ring.trbs.length := by rw [index, aligned.slots]
    have next := next_wrap aligned.links last (by omega)
    rw [cycle, Bool.not_not] at next
    have whole : size ≤ state.filled.length :=
      Nat.le_of_dvd positive (Nat.dvd_of_mod_eq_zero start)
    rw [start]
    refine ⟨_, next, aligned.links, aligned.base, ?_, ?_, ?_, ?_⟩
    · rw [length_set]
      exact aligned.slots
    · rw [place, start]
    · intro other below
      rw [getElem?_set_ne (by omega)]
    · rw [index, getElem?_set_self (by omega), aligned.base, linkTrb,
        if_neg (by omega : ¬ state.filled.length + 1 ≤ size), Nat.add_sub_cancel]
  · have inside : state.filled.length % size ≠ 0 ∨ state.filled.length = 0 := by omega
    rw [place_inside inside] at producer
    obtain ⟨index, cycle⟩ := Prod.mk.injEq .. ▸ producer
    have room : state.ring.i + 1 < state.ring.trbs.length := by
      rw [index, aligned.slots]
      omega
    have next := next_inside room
    rw [index, cycle] at next
    refine ⟨_, next, aligned.links, aligned.base, aligned.slots, rfl, fun _ _ => rfl, ?_⟩
    rw [linkTrb_succ nonempty inside]
    exact aligned.linkSlot

theorem fill {trb} (proper : Proper state (.fill trb)) {after output}
    (stepped : state.step (.fill trb) = some (after, output)) :
    Aligned physical size after := by
  obtain ⟨ring, next, links, base, slots, producer, kept, linkSlot⟩ := aligned.next_place nonempty
  obtain ⟨cycle, payload, room⟩ := proper
  rw [next, Option.map_some, Option.some_inj] at cycle
  rw [Exchange.step, next, Option.map_some] at stepped
  cases stepped
  have small := Nat.mod_lt state.filled.length nonempty
  have behind := aligned.behind
  refine ⟨links, base, ?_, ?_, ?_, ?_, ?_, ?_, ?_, ?_, ?_, ?_⟩
  · rw [Ring.fill, length_set, slots]
  · rw [length_append, length_singleton]
    exact producer
  · apply aligned.log.push nonempty
    · exact getElem?_set_self (by omega)
    · intro index below other
      rw [Ring.fill, getElem?_set_ne other.symm, kept index below]
  · exact forall_getElem?_concat aligned.cycles cycle.symm
  · exact forall_getElem?_concat aligned.payload payload
  · rw [Ring.fill, getElem?_set_ne (by omega), linkSlot, length_append, length_singleton]
  · rw [take_append_of_le_length behind]
    exact aligned.seen
  · rw [length_append]
    exact Nat.le_add_right_of_le behind
  · rw [length_append, length_singleton]
    have length := aligned.slots
    change state.filled.length + 1 < state.observed.length + size
    omega
  · rcases aligned.consumer with here | ⟨start, more, followed⟩
    · exact .inl here
    · refine .inr ⟨start, ?_, followed⟩
      rw [length_append]
      exact Nat.lt_add_right _ more

theorem consume (fits : physical < 2 ^ 64) : Aligned physical size state.consume := by
  rw [Exchange.consume]
  rcases aligned.move_cases nonempty fits with
    ⟨_, _, stops⟩ | ⟨trb, next, observes⟩ | ⟨_, start, more, _, follows⟩
  · rw [stops]
    exact aligned
  · rw [observes]
    have inside := (List.getElem?_eq_some_iff.mp next).1
    have longer : (state.observed ++ [trb]).length = state.observed.length + 1 :=
      length_append
    refine { aligned with seen := ?_, behind := ?_, near := ?_, consumer := ?_ }
    · rw [longer, take_add_one, next, ← aligned.seen]
      rfl
    · rw [longer]
      exact inside
    · rw [longer]
      have near := aligned.near
      change state.filled.length < state.observed.length + 1 + size
      omega
    · rw [longer]
      exact .inl rfl
  · rw [follows]
    exact { aligned with consumer := .inr ⟨start, more, rfl⟩ }

theorem drain (fits : physical < 2 ^ 64) {rounds}
    (enough : 2 * (state.filled.length - state.observed.length) + 1 < rounds) :
    ∃ rest, state.consumer.drain state.ring rounds =
        some (rest, standing physical size state.filled.length) ∧
      state.observed ++ rest = state.filled := by
  let reached (drained : List Trb × Consumer) : Exchange :=
    { state with consumer := drained.2, observed := state.observed ++ drained.1 }
  let measure (drained : List Trb × Consumer) : Nat :=
    2 * (state.filled.length - (reached drained).observed.length) +
      if drained.2.pointer = physical then 0 else 1
  have progress : ∀ drained next, Aligned physical size (reached drained) →
      Consumer.drainRound state.ring drained = .again next →
      Aligned physical size (reached next) ∧ measure next < measure drained := by
    intro drained next kept round
    have after := kept.consume nonempty fits
    rcases kept.move_cases nonempty fits with
      ⟨_, _, stops⟩ | ⟨trb, found, observes⟩ | ⟨here, start, _, positive, follows⟩
    · rw [Consumer.drainRound, stops] at round
      cases round
    · have inside := (List.getElem?_eq_some_iff.mp found).1
      rw [Consumer.drainRound, observes] at round
      cases round
      rw [Exchange.consume, observes] at after
      refine ⟨by simpa only [reached, append_assoc] using after, ?_⟩
      simp only [measure, reached, length_append, length_singleton] at inside ⊢
      split <;> split <;> omega
    · rw [Consumer.drainRound, follows] at round
      cases round
      rw [Exchange.consume, follows] at after
      refine ⟨after, ?_⟩
      have place := place_wrap nonempty positive start
      have away : drained.2.pointer ≠ physical := by
        change drained.2 = _ at here
        rw [here, standing, place]
        simp only [trbSize]
        omega
      simp only [measure, reached, if_neg away, if_true]
      omega
  have initially : Aligned physical size (reached ([], state.consumer)) := by
    simpa only [reached, append_nil] using aligned
  have small : measure ([], state.consumer) < rounds := by
    simp only [measure, reached, append_nil]
    split <;> omega
  obtain ⟨result, ⟨rest, consumer⟩, kept, ended, played⟩ := loop_ends progress initially small
  rcases kept.move_cases nonempty fits with
    ⟨all, here, stops⟩ | ⟨trb, _, observes⟩ | ⟨_, _, _, _, follows⟩
  · rw [Consumer.drainRound, stops] at ended
    cases ended
    refine ⟨rest, ?_, ?_⟩
    · rw [Consumer.drain, played, ← all, ← here]
    · rw [← take_length (l := state.filled), ← all]
      exact kept.seen
  · rw [Consumer.drainRound, observes] at ended
    cases ended
  · rw [Consumer.drainRound, follows] at ended
    cases ended

omit nonempty in
theorem register : state.ring.register = (standing physical size state.filled.length).pointer |||
    (standing physical size state.filled.length).cycle.toNat := by
  rw [Ring.register, aligned.base, standing, ← aligned.producer]

end Aligned

theorem aligned_reachable (fits : physical < 2 ^ 64) (nonempty : 0 < size)
    (reached : (exchange physical (size + 1)).ReachableWhile Proper state) :
    Aligned physical size state := by
  apply reached.invariant (aligned_start nonempty)
  intro before event after output _ aligned proper stepped
  cases event with
  | fill trb => exact aligned.fill nonempty proper stepped
  | consume =>
    cases stepped
    exact aligned.consume nonempty fits

/-- In every run, a controller that goes on until it stops observes what it had not yet
observed of the filled TRBs, in their order, and stops where `register` points. -/
theorem ring_fifo {length : Nat} (fits : physical < 2 ^ 64) (page : 16 ∣ physical)
    (long : 3 ≤ length) (reached : (exchange physical length).ReachableWhile Proper state) :
    ∃ rest last,
      (∀ rounds, 2 * length ≤ rounds → state.consumer.drain state.ring rounds = some (rest, last)) ∧
      state.observed ++ rest = state.filled ∧
      state.ring.register = last.pointer + last.cycle.toNat ∧ 16 ∣ last.pointer := by
  obtain ⟨size, rfl⟩ := Nat.exists_eq_add_of_le' ((by decide : 1 ≤ 3).trans long)
  have nonempty : 0 < size := by omega
  have aligned := aligned_reachable fits nonempty reached
  have near := aligned.near
  have enough : 2 * (state.filled.length - state.observed.length) + 1 < 2 * (size + 1) := by omega
  obtain ⟨rest, _, whole⟩ := aligned.drain nonempty fits enough
  refine ⟨rest, standing physical size state.filled.length, ?_, whole, ?_, ?_⟩
  · intro rounds more
    obtain ⟨other, drained, same⟩ :=
      aligned.drain nonempty fits (enough.trans_le more)
    rw [drained, append_cancel_left (same.trans whole.symm)]
  · obtain ⟨slot, exactly⟩ := page_standing page
    rw [aligned.register, exactly]
    exact (Nat.two_pow_add_eq_or_of_lt (i := 4) (by cases Consumer.cycle _ <;> decide) slot).symm
  · exact page_standing page

/-- A ring of three slots that has wrapped twice. -/
theorem ring_fifo_three_slots : ∃ state,
    (exchange 4096 3).ReachableWhile Proper state ∧ state.filled.length = 5 ∧
    ∃ rest last,
      (∀ rounds, 2 * 3 ≤ rounds → state.consumer.drain state.ring rounds = some (rest, last)) ∧
      state.observed ++ rest = state.filled ∧
      state.ring.register = last.pointer + last.cycle.toNat ∧ 16 ∣ last.pointer := by
  let normal (cycle : Bool) : Trb := ⟨0, 0, 1024 ||| cycle.toUInt32⟩
  have reaches : ∃ state, (exchange 4096 3).ReachableWhile Proper state ∧ state.filled.length = 5 :=
    System.reaches_replay [.fill (normal true), .consume, .fill (normal true), .consume,
      .fill (normal false), .consume, .consume, .fill (normal false), .consume,
      .fill (normal true)] (by decide +kernel)
  obtain ⟨state, reached, five⟩ := reaches
  exact ⟨state, reached, five, ring_fifo (by decide) (by decide) (by decide) reached⟩

end EosBase.Xhci
