import EosBase.Virtio.Device

/-!
# Descriptors are neither shared nor lost

In every run the free stack and the chains of the pending requests divide the descriptors
among them.  What may go wrong is the arithmetic: a build with overflow checks panics when
the 16-bit index of the available ring is incremented beyond its range or that of the used
ring is decremented from 0, and the size of a buffer is cut to 32 bits.
-/

namespace EosBase.Virtio

open List Option Traffic Nat

variable {size : Nat} {state : Traffic} {overflowChecks : Bool}

/-- Every descriptor is free or in the chain of one pending request, whose buffers it links;
requests that fit can be sent and pending ones polled; the device finds the next request
that was sent, and the driver the entries that were used. -/
structure Whole (overflowChecks : Bool) (size : Nat) (state : Traffic) : Prop where
  free : state.queue.descriptorStack.Nodup
  partition : (state.queue.descriptorStack ++ state.requests.flatMap Request.chain).Perm
    (range size)
  chains : ∀ request ∈ state.requests,
    Linked state.queue.descriptor request.chain request.buffers
  sends : ∀ buffers, buffers ≠ [] → buffers.length ≤ state.queue.descriptorStack.length →
    (state.send overflowChecks buffers).isSome = true
  polls : ∀ request ∈ state.requests,
    (state.queue.poll overflowChecks request.firstDescriptor).isSome = true
  available : state.taken < state.sent.length →
    ∃ first, state.sent[state.taken]? = some first ∧ state.take = some { state with
      taken := state.taken + 1, working := state.working ++ [⟨state.taken, first⟩] }
  used : ∀ (position : Nat) entry, state.used[position]? = some entry →
    state.used.length ≤ position + size →
    state.queue.usedElements[position % 2 ^ 16 % size]? = some entry.2

/-- The buffers are smaller than 4 GiB and, in a build with overflow checks, the indices are
away from their ends when something is to be sent or polled. -/
def Ordinary (overflowChecks : Bool) (state : Traffic) : Prop :=
  (∀ request ∈ state.requests, ∀ buffer ∈ request.buffers, buffer.size < 2 ^ 32) ∧
    (overflowChecks = true →
      (state.queue.availableHead ≠ 2 ^ 16 - 1 ∨ state.queue.descriptorStack = []) ∧
        (state.queue.usedIndex ≠ 0 ∨ state.queue.usedHead = 0 ∨ state.requests = []))

def smallest : Buffer := ⟨0, 0, ⟨false, false, false⟩⟩

section

variable (sane : Sane size state)

include sane

theorem Sane.send_isSome_iff {buffers} (nonempty : buffers ≠ [])
    (enough : buffers.length ≤ state.queue.descriptorStack.length) :
    (state.send overflowChecks buffers).isSome = true ↔
      ¬ (overflowChecks = true ∧ state.queue.availableHead = 2 ^ 16 - 1) := by
  have small : state.queue.availableHead < 2 ^ 16 := by
    rw [sane.recorded.availableHead]
    exact mod_lt _ (by decide)
  obtain ⟨chain, built⟩ := ofBuffers_isSome nonempty
  obtain ⟨chained, more, same⟩ := ofBuffers_chained built
  obtain ⟨first, table, sent, _⟩ :=
    sane.divided.send overflowChecks chained more (same ▸ enough)
  rw [Traffic.send, built]
  simp only [sent, addU16_one small]
  split
  next panics => simp only [panics, map_none, isSome_none, Bool.false_eq_true, and_self, not_true]
  next fine => simp only [fine, map_some, isSome_some, not_false_eq_true]

theorem Sane.sends_iff :
    (∀ buffers, buffers ≠ [] → buffers.length ≤ state.queue.descriptorStack.length →
        (state.send overflowChecks buffers).isSome = true) ↔
      (overflowChecks = true →
        state.queue.availableHead ≠ 2 ^ 16 - 1 ∨ state.queue.descriptorStack = []) := by
  constructor
  · intro sends checked
    by_cases empty : state.queue.descriptorStack = []
    · exact .inr empty
    left
    intro last
    have one : [smallest] ≠ [] := cons_ne_nil _ _
    have enough := length_pos_iff.mpr empty
    exact (sane.send_isSome_iff one enough).mp (sends _ one enough) ⟨checked, last⟩
  · intro condition buffers nonempty enough
    apply (sane.send_isSome_iff nonempty enough).mpr
    rintro ⟨checked, last⟩
    rcases condition checked with notLast | empty
    · exact notLast last
    · rw [empty] at enough
      exact nonempty (length_eq_zero_iff.mp (le_zero.mp enough))

theorem Sane.polls_iff (fits : QueueSize size) :
    (∀ request ∈ state.requests,
        (state.queue.poll overflowChecks request.firstDescriptor).isSome = true) ↔
      (overflowChecks = true →
        state.queue.usedIndex ≠ 0 ∨ state.queue.usedHead = 0 ∨ state.requests = []) := by
  have fresh := sane.usedIndex_eq_usedHead_iff fits
  constructor
  · intro polls checked
    by_contra stuck
    push Not at stuck
    obtain ⟨zero, head, pending⟩ := stuck
    obtain ⟨request, member⟩ := exists_mem_of_ne_nil _ pending
    have returned := polls request member
    cases sane.polled fits overflowChecks member with
    | nothing all polled => exact head ((fresh.mpr all).symm.trans zero)
    | underflow more _ _ polled =>
      rw [polled] at returned
      cases returned
    | other _ _ fine | own _ _ fine => exact fine ⟨checked, zero⟩
  · intro condition request member
    cases sane.polled fits overflowChecks member with
    | nothing _ polled | other _ _ _ _ _ polled
    | own _ _ _ _ _ polled => rw [polled, isSome_some]
    | underflow more checked zero polled =>
      rcases condition checked with notZero | head | empty
      · exact absurd zero notZero
      · exact absurd (fresh.mp (zero.trans head.symm)) more.ne'
      · rw [empty] at member
        cases member

theorem Sane.chains_iff : (∀ request ∈ state.requests,
        Linked state.queue.descriptor request.chain request.buffers) ↔
      ∀ request ∈ state.requests, ∀ buffer ∈ request.buffers, buffer.size < 2 ^ 32 :=
  forall₂_congr fun request member => linked_cut_iff (sane.divided.linked request member)

end

/-- In every state of a run the descriptors are whole exactly when the sizes and the indices
are ordinary. -/
theorem descriptors_whole_iff (fits : QueueSize size)
    (reached : (virtqueue overflowChecks size).Reachable state) :
    Whole overflowChecks size state ↔ Ordinary overflowChecks state := by
  have sane := sane_reachable fits reached
  constructor
  · intro whole
    refine ⟨sane.chains_iff.mp whole.chains, fun checked => ⟨?_, ?_⟩⟩
    · exact sane.sends_iff.mp whole.sends checked
    · exact (sane.polls_iff fits).mp whole.polls checked
  · rintro ⟨sizes, indices⟩
    refine ⟨(nodup_append.mp sane.divided.nodup).1, sane.divided.partition,
      sane.chains_iff.mpr sizes, sane.sends_iff.mpr fun checked => (indices checked).1,
      (sane.polls_iff fits).mpr fun checked => (indices checked).2, ?_, ?_⟩
    · intro more
      rcases sane.take_eq fits with ⟨all, _⟩ | found
      · exact absurd all more.ne
      · exact found
    · intro position entry found near
      rw [mod_mod_of_dvd _ fits.2.2]
      apply sane.recorded.used.recent
      · rw [getElem?_map, found]
        rfl
      · rw [length_map]
        exact near

/-- Two requests, the first of which was recycled. -/
theorem descriptors_whole_iff_recycled :
    ∃ state, (virtqueue true 2).Reachable state ∧ state.sent.length = 2 ∧
      Whole true 2 state := by
  have reaches : ∃ state, (virtqueue true 2).Reachable state ∧ (state.sent.length = 2 ∧
      (∀ request ∈ state.requests, ∀ buffer ∈ request.buffers, buffer.size < 2 ^ 32) ∧
      state.queue.availableHead ≠ 2 ^ 16 - 1 ∧ state.queue.usedIndex ≠ 0) :=
    System.reaches_replay [.send [⟨4096, 512, ⟨false, false, false⟩⟩], .take, .use 0 7,
      .poll 0, .send [⟨4096, 512, ⟨false, false, false⟩⟩, ⟨8192, 512, ⟨false, true, false⟩⟩]]
      (by decide +kernel)
  obtain ⟨state, reached, two, sizes, available, used⟩ := reaches
  refine ⟨state, reached, two, (descriptors_whole_iff (by decide) reached).mpr ?_⟩
  exact ⟨sizes, fun _ => ⟨.inl available, .inl used⟩⟩

/-- A state in which so many requests were sent and all are reported. -/
structure Idle (count : Nat) (state : Traffic) : Prop where
  requests : state.requests = []
  working : state.working = []
  sent : state.sent.length = count
  taken : state.taken = count
  used : state.used.length = count
  acknowledged : state.acknowledged = count

structure Busy (count : Nat) (state : Traffic) : Prop where
  requests : ∃ request : Request, request.id = count ∧ state.requests = [request]
  working : ∃ job : Job, job.id = count ∧ state.working = [job]
  sent : state.sent.length = count + 1
  taken : state.taken = count + 1
  used : state.used.length = count
  acknowledged : state.acknowledged = count

theorem used_only {job} (only : state.working = [job]) {written} :
    ∃ queue, state.use 0 written = some { state with
      queue, working := [], used := state.used ++ [(job.id, ⟨job.tableIndex, written⟩)] } := by
  refine ⟨{ state.queue with
    usedElements := state.queue.usedElements.set
      (state.queue.usedIndex % state.queue.usedElements.length) ⟨job.tableIndex, written⟩
    usedIndex := (state.queue.usedIndex + 1) % 2 ^ 16 }, ?_⟩
  rw [use, only]
  rfl

theorem reported_only (sane : Sane size state) (fits : QueueSize size) {request}
    (only : state.requests = [request]) (small : state.used.length < 2 ^ 16)
    {element} (last : state.used.getLast? = some (request.id, element))
    (more : state.acknowledged < state.used.length) :
    ∃ queue, state.poll overflowChecks request.id = some ({ state with
      queue, requests := [], acknowledged := state.used.length }, .ready element.written) := by
  have member : request ∈ state.requests := by
    rw [only]
    exact mem_singleton_self request
  have found : state.requests.find? (·.id == request.id) = some request := by
    rw [only]
    exact find?_cons_of_pos (beq_self_eq_true request.id)
  cases sane.polled fits overflowChecks member with
  | nothing all => exact absurd all more.ne'
  | underflow _ _ zero =>
    rw [sane.recorded.usedIndex, mod_eq_of_lt small] at zero
    omega
  | other entry _ _ other different =>
    cases last.symm.trans other
    exact absurd rfl different
  | own entry _ _ own _ polled =>
    cases last.symm.trans own
    refine ⟨{ state.queue with
      descriptorStack := state.queue.descriptorStack ++ request.chain
      usedHead := state.queue.usedIndex }, ?_⟩
    simp only [poll, found, polled, map_some]
    simp only [only, erase_cons_head]

variable {count : Nat}

namespace Idle

section

variable (idle : Idle count state)

include idle

theorem room (sane : Sane size state) :
    state.queue.descriptorStack.length = size := by
  have total := sane.divided.partition.length_eq
  rw [idle.requests, flatMap_nil, append_nil, length_range] at total
  exact total

theorem send {buffers sent} (sends : state.send overflowChecks buffers = some sent) :
    ∃ request queue, request.id = count ∧ sent = { state with
      queue, requests := [request], sent := state.sent ++ [request.firstDescriptor] } := by
  rw [Traffic.send] at sends
  split at sends
  next => cases sends
  next chain _ =>
      obtain ⟨⟨queue, first⟩, _, same⟩ := map_eq_some_iff.mp sends
      cases same
      refine ⟨⟨state.sent.length, first, state.queue.descriptorStack.take chain.length, chain⟩,
        queue, idle.sent, ?_⟩
      simp only [idle.requests, nil_append]

theorem begun (fits : QueueSize size) (small : count < 2 ^ 16 - 1)
    (reached : (virtqueue overflowChecks size).Reachable state) :
    ∃ next, (virtqueue overflowChecks size).Reachable next ∧ Busy count next := by
  have sane := sane_reachable fits reached
  obtain ⟨sent, sends⟩ : ∃ sent, state.send overflowChecks [smallest] = some sent := by
    apply isSome_iff_exists.mp
    apply (sane.send_isSome_iff (cons_ne_nil _ _) (idle.room sane ▸ fits.1)).mpr
    rw [sane.recorded.availableHead, idle.sent]
    omega
  have stepSend : (virtqueue overflowChecks size).step state (.send [smallest]) =
      some (sent, none) := congrArg (Option.map _) sends
  have reachedSent := reached.step trivial stepSend
  obtain ⟨request, queue, id, rfl⟩ := idle.send sends
  have sentLength : (state.sent ++ [request.firstDescriptor]).length = count + 1 := by
    rw [length_append, idle.sent, length_singleton]
  rcases (sane_reachable fits reachedSent).take_eq fits with ⟨all, _⟩ | ⟨first, _, takes⟩
  · exact absurd (idle.taken.symm.trans (all.trans sentLength)) (lt_succ_self _).ne
  have stepTake : (virtqueue overflowChecks size).step _ .take = some (_, none) :=
    congrArg (Option.map _) takes
  refine ⟨_, reachedSent.step trivial stepTake, ⟨request, id, rfl⟩, ⟨⟨count, first⟩, rfl, ?_⟩,
    sentLength, congrArg (· + 1) idle.taken, idle.used, idle.acknowledged⟩
  simp only [idle.working, idle.taken, nil_append]

end

end Idle

theorem Busy.ended (busy : Busy count state) (fits : QueueSize size) (small : count < 2 ^ 16 - 1)
    (reached : (virtqueue overflowChecks size).Reachable state) :
    ∃ next, (virtqueue overflowChecks size).Reachable next ∧ Idle (count + 1) next := by
  obtain ⟨request, requestId, requests⟩ := busy.requests
  obtain ⟨job, jobId, working⟩ := busy.working
  obtain ⟨queueUsed, uses⟩ := used_only working
  have stepUse : (virtqueue overflowChecks size).step state (.use 0 0) = some (_, none) :=
    congrArg (Option.map _) uses
  have reachedUsed := reached.step trivial stepUse
  have usedLength : (state.used ++ [(job.id, (⟨job.tableIndex, 0⟩ : UsedRingElement))]).length =
      count + 1 := by
    rw [length_append, busy.used, length_singleton]
  have last : (state.used ++ [(job.id, (⟨job.tableIndex, 0⟩ : UsedRingElement))]).getLast? =
      some (request.id, ⟨job.tableIndex, 0⟩) := by
    rw [getLast?_concat, requestId, jobId]
  obtain ⟨queuePolled, polls⟩ : ∃ queue, poll overflowChecks _ request.id = some (_, _) :=
    reported_only (sane_reachable fits reachedUsed) fits requests
      (usedLength ▸ add_lt_of_lt_sub small) last
      (usedLength ▸ busy.acknowledged ▸ lt_succ_self _)
  have stepPoll : (virtqueue overflowChecks size).step _ (.poll request.id) =
      some (_, some _) := congrArg replied polls
  exact ⟨_, reachedUsed.step trivial stepPoll, rfl, rfl, busy.sent, busy.taken, usedLength,
    usedLength⟩

theorem idle_reachable (fits : QueueSize size) (small : count ≤ 2 ^ 16 - 1) :
    ∃ state, (virtqueue overflowChecks size).Reachable state ∧ Idle count state := by
  induction count with
  | zero => exact ⟨.new size, ⟨[], .start⟩, rfl, rfl, rfl, rfl, rfl, rfl⟩
  | succ count ih =>
    obtain ⟨state, reached, idle⟩ := ih (le_of_succ_le small)
    obtain ⟨busyState, busyReached, busy⟩ := idle.begun fits small reached
    exact busy.ended fits small busyReached

/-- After 65535 requests that were all reported, nothing is sent any more: the index of the
available ring overflows. -/
theorem request_65536_panics : ∃ state, (virtqueue true 2).Reachable state ∧ state.requests = [] ∧
      state.queue.descriptorStack.length = 2 ∧ state.send true [smallest] = none ∧
      ¬ Whole true 2 state := by
  have fits : QueueSize 2 := by decide
  obtain ⟨state, reached, idle⟩ := idle_reachable fits le_rfl
  have sane := sane_reachable fits reached
  have room := idle.room sane
  have one : [smallest] ≠ [] := cons_ne_nil _ _
  have enough : [smallest].length ≤ state.queue.descriptorStack.length := by
    rw [room]
    decide
  have last : state.queue.availableHead = 2 ^ 16 - 1 := by
    have head := sane.recorded.availableHead
    rw [idle.sent] at head
    exact head
  have panics : ¬ (state.send true [smallest]).isSome = true := by
    intro sends
    exact (sane.send_isSome_iff one enough).mp sends ⟨rfl, last⟩
  refine ⟨state, reached, idle.requests, room, not_isSome_iff_eq_none.mp panics, ?_⟩
  intro whole
  exact panics (whole.sends _ one enough)

end EosBase.Virtio
