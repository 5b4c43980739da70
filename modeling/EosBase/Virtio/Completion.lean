import EosBase.Virtio.Device

/-!
# Completed requests are reported

A future looks at the last entry of the used ring only.  So a poll tells the truth about
its request exactly when the request is not used yet, or its entry is still the last one.
-/

namespace EosBase.Virtio

open List

variable {size : Nat} {state : Traffic} {overflowChecks : Bool}

/-- A poll returns, and is `Ready` with the length that was written when the request is used,
and `Pending` when it is not. -/
def Truthful (overflowChecks : Bool) (state : Traffic) (request : Request) : Prop :=
  match state.queue.poll overflowChecks request.firstDescriptor with
  | none => False
  | some (_, .pending) => ∀ element, (request.id, element) ∉ state.used
  | some (_, .ready written) =>
    ∃ element, (request.id, element) ∈ state.used ∧ element.written = written

theorem Sane.last_acknowledged (sane : Sane size state)
    (all : state.used.length = state.acknowledged) {request}
    (member : request ∈ state.requests) {element} :
    state.used.getLast? ≠ some (request.id, element) := by
  intro last
  have positive : 0 < state.acknowledged := by
    rw [← all]
    exact length_pos_of_mem (mem_of_mem_getLast? last)
  rw [getLast?_eq_getElem?, all] at last
  exact sane.followed.reported _ positive last (mem_map_of_mem member)

/-- A poll tells the truth exactly when the index of the used ring can be decremented, if
there is a new entry, and the entry of the request is the last one, if there is one. -/
theorem requests_reported_iff (fits : QueueSize size)
    (reached : (virtqueue overflowChecks size).Reachable state) {request : Request}
    (membership : request ∈ state.requests) :
    Truthful overflowChecks state request ↔
      ¬ (overflowChecks = true ∧ state.queue.usedIndex = 0 ∧ state.queue.usedHead ≠ 0) ∧
        ∀ element, (request.id, element) ∈ state.used →
          state.used.getLast? = some (request.id, element) := by
  have sane := sane_reachable fits reached
  have fresh := sane.usedIndex_eq_usedHead_iff fits
  rw [Truthful]
  cases sane.polled fits overflowChecks membership with
  | nothing all polled =>
    rw [polled]
    constructor
    · intro unused
      refine ⟨fun panics => panics.2.2 ((fresh.mpr all).symm.trans panics.2.1), ?_⟩
      intro element used
      exact absurd used (unused element)
    · intro condition element used
      exact sane.last_acknowledged all membership (condition.2 element used)
  | underflow more checked zero polled =>
    rw [polled]
    refine iff_of_false id fun condition => condition.1 ⟨checked, zero, fun head => ?_⟩
    exact more.ne' (fresh.mp (zero.trans head.symm))
  | other entry more fine last different polled =>
    rw [polled]
    constructor
    · intro unused
      refine ⟨fun panics => fine ⟨panics.1, panics.2.1⟩, fun element used => ?_⟩
      exact absurd used (unused element)
    · intro condition element used
      rw [condition.2 element used] at last
      cases last
      exact different rfl
  | own entry more fine last same polled =>
    rw [polled]
    have used := mem_of_mem_getLast? last
    refine iff_of_true ⟨entry.2, same ▸ used, rfl⟩
      ⟨fun panics => fine ⟨panics.1, panics.2.1⟩, fun element other => ?_⟩
    have once := (nodup_append.mp sane.followed.once).2.1
    rw [inj_on_of_nodup_map once other used same.symm]
    exact last

/-- A request that was used last. -/
theorem requests_reported_iff_last :
    ∃ state, (virtqueue true 2).Reachable state ∧ ∃ request ∈ state.requests,
      state.used.map Prod.fst = [0] ∧ Truthful true state request := by
  have reaches : ∃ state, (virtqueue true 2).Reachable state ∧
      ((∃ request ∈ state.requests, request.id = 0) ∧ state.queue.usedIndex = 1 ∧
        state.used = [(0, ⟨0, 7⟩)]) :=
    System.reaches_replay [.send [⟨4096, 512, ⟨false, false, false⟩⟩], .take, .use 0 7]
      (by decide +kernel)
  obtain ⟨state, reached, ⟨request, member, zero⟩, index, used⟩ := reaches
  refine ⟨state, reached, request, member, by rw [used]; rfl, ?_⟩
  refine (requests_reported_iff (by decide) reached member).mpr ⟨?_, ?_⟩
  · rintro ⟨_, none, _⟩
    rw [index] at none
    cases none
  · intro element found
    rw [used] at found ⊢
    rw [← mem_singleton.mp found]
    rfl

/-- Two requests are used between two polls: the first one is never reported. -/
theorem earlier_completion_unreported :
    ∃ state, (virtqueue false 2).Reachable state ∧ ∃ request ∈ state.requests,
      (request.id, ⟨0, 5⟩) ∈ state.used ∧ ¬ Truthful false state request := by
  have reaches : ∃ state, (virtqueue false 2).Reachable state ∧
      ∃ request ∈ state.requests, (request.id, ⟨0, 5⟩) ∈ state.used ∧
        (state.queue.poll false request.firstDescriptor).map Prod.snd = some .pending :=
    System.reaches_replay [.send [⟨4096, 512, ⟨false, false, false⟩⟩],
      .send [⟨8192, 512, ⟨false, false, false⟩⟩], .take, .take, .use 0 5, .use 0 6]
      (by decide +kernel)
  obtain ⟨state, reached, request, member, used, pending⟩ := reaches
  refine ⟨state, reached, request, member, used, fun truthful => ?_⟩
  obtain ⟨⟨queue, result⟩, polled, same⟩ := Option.map_eq_some_iff.mp pending
  cases same
  rw [Truthful, polled] at truthful
  exact truthful _ used

end EosBase.Virtio
