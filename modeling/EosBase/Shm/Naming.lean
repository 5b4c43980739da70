import EosBase.Shm.References

/-!
# Names of shared memory

Which segment a path names is told by when its entry was made: an entry that is
freed and made again is another segment.  A path that was unlinked still finds
the old entry while somebody holds it, so what is said of names here holds as
long as nobody opens such a path.
-/

namespace EosBase.Shm

open Redox List Table Option HandleMap

abbrev Step := Transition ShmScheme Event (Result Reply)

/-- The number of requests that were served, and when the entry of a path was made. -/
def trackSegment (path : Name) (tracked : Nat × Option Nat) (step : Step) : Nat × Option Nat :=
  (tracked.1 + 1, if step.after.maps.contains path then tracked.2.or (some tracked.1) else none)

def segmentOf (path : Name) (history : List Step) : Option Nat :=
  (history.foldl (trackSegment path) (0, none)).2

def Unlinks (path : Name) (step : Step) : Prop :=
  ∃ dirfd flags, step.event = .unlinkat dirfd path flags ∧ step.output = some (.ok .done)

def Opens (path : Name) (id : Nat) (step : Step) : Prop :=
  ∃ dirfd flags, step.event = .openat dirfd path flags ∧
    step.output = some (.ok (.thisScheme id))

/-- No path is opened that was unlinked while somebody still holds its segment. -/
def Settled (this : ShmScheme) : Event → Prop
  | .openat _ path _ => ((this.maps.get? path).all fun entry => !entry.unlinked) = true
  | _ => True

instance (this : ShmScheme) (event : Event) : Decidable (Settled this event) := by
  unfold Settled
  split <;> infer_instance

theorem foldl_trackSegment_fst (path : Name) (history : List Step) (tracked : Nat × Option Nat) :
    (history.foldl (trackSegment path) tracked).1 = tracked.1 + history.length := by
  induction history generalizing tracked with
  | nil => rfl
  | cons step history ih =>
    rw [foldl_cons, ih, length_cons, trackSegment]
    omega

variable {history : List Step} {path : Name} {step : Step} {allowed : ShmScheme → Event → Prop}
  {state this after : ShmScheme} {event : Event} {output : Option (Result Reply)} {id : Nat}
  {later earlier : List Step} {origin : ShmScheme}

theorem segmentOf_append : segmentOf path (history ++ [step]) =
      if step.after.maps.contains path then (segmentOf path history).or (some history.length)
      else none := by
  have served := foldl_trackSegment_fst path history (0, none)
  rw [Nat.zero_add] at served
  rw [segmentOf, foldl_append, foldl_cons, foldl_nil, trackSegment, served]
  rfl

section Runs

section

variable (run : shm.Run allowed history state)

include run

theorem segmentOf_isSome (path : Name) :
    (segmentOf path history).isSome = state.maps.contains path := by
  induction run with
  | start => rfl
  | @step history state event output next earlier permitted stepped ih =>
    rw [segmentOf_append]
    split
    next present =>
      rw [present]
      cases segmentOf path history <;> rfl
    next absent => exact (Bool.eq_false_iff.mpr absent).symm

theorem segmentOf_lt {number}
    (names : segmentOf path history = some number) : number < history.length := by
  induction run with
  | start => cases names
  | @step history state event output next earlier permitted stepped ih =>
    rw [segmentOf_append] at names
    rw [length_append, length_singleton]
    split at names
    · cases before : segmentOf path history with
      | none =>
        rw [before] at names
        cases names
        exact Nat.lt_succ_self _
      | some old =>
        rw [before] at names
        cases names
        exact Nat.lt_succ_of_lt (ih before)
    · cases names

theorem segmentOf_stays
    (before : state.maps.get? path ≠ none) (after : step.after.maps.get? path ≠ none) :
    segmentOf path (history ++ [step]) = segmentOf path history := by
  have present : step.after.maps.contains path = true := isSome_iff_ne_none.mpr after
  have named := segmentOf_isSome run path
  rw [Table.contains, isSome_iff_ne_none.mpr before] at named
  obtain ⟨number, names⟩ := isSome_iff_exists.mp named
  rw [segmentOf_append, if_pos present, names]
  rfl

end

end Runs

theorem nextId_le
    (effect : Effect this event output after) : this.handles.nextId ≤ after.handles.nextId := by
  cases effect with
  | rooted | attached | created => exact nextId_insert.le
  | _ => exact le_rfl

theorem held_before {handle} (effect : Effect this event output after)
    (old : id < this.handles.nextId) (held : after.handles.get? id = some handle) :
    this.handles.get? id = some handle := by
  have inserted : ∀ new : Handle, (this.handles.insert new).1.get? id = some handle →
      this.handles.get? id = some handle := by
    intro new present
    rw [get?_insert, if_neg old.ne] at present
    exact present
  have removed : ∀ other, (this.handles.remove other).1.get? id = some handle →
      this.handles.get? id = some handle := by
    intro other present
    rw [get?_remove] at present
    split at present
    · cases present
    · exact present
  cases effect with
  | rooted | attached | created => exact inserted _ held
  | unrooted | detached | freed => exact removed _ held
  | _ => exact held

theorem handle_keeps (run : shm.Run allowed earlier origin)
    (onward : shm.Path allowed origin later state)
    (opened : origin.handles.get? id = some (.shm path)) :
    id < state.handles.nextId ∧ (state.handles.get? id = some (.shm path) →
      segmentOf path (earlier ++ later) = segmentOf path earlier) := by
  induction onward with
  | start =>
    rw [append_nil]
    exact ⟨lt_nextId opened, fun _ => rfl⟩
  | @step history middle event output next before permitted stepped ih =>
    have effect := step_effect stepped
    have reached := run.append before
    refine ⟨ih.1.trans_le (nextId_le effect), ?_⟩
    intro held
    have heldBefore := held_before effect ih.1 held
    have here := (accounted_reachable ⟨_, reached⟩).named id path heldBefore
    have there := (accounted_reachable ⟨_, reached.step permitted stepped⟩).named id path held
    rw [← append_assoc, segmentOf_stays reached here there]
    exact ih.2 heldBefore

def Renewed (since : Nat) (path : Name) (history : List Step) (state : ShmScheme) : Prop :=
  ∀ entry, state.maps.get? path = some entry →
    entry.unlinked = true ∨ ∃ number, segmentOf path history = some number ∧ since ≤ number

def Vacated (path : Name) (state : ShmScheme) : Prop :=
  ∀ entry, state.maps.get? path = some entry → entry.unlinked = true

variable {before : ShmScheme} {entry : ShmHandle}

theorem unlinks_vacated (effect : Effect before event output after)
    (unlinks : Unlinks path ⟨before, event, output, after⟩) : Vacated path after := by
  obtain ⟨dirfd, flags, event_eq, output_eq⟩ := unlinks
  subst event_eq output_eq
  intro entry present
  cases effect with
  | unlinked =>
    rw [get?_insert_self] at present
    cases present
    rfl
  | removed =>
    rw [get?_erase_self] at present
    cases present
  | used uses => cases uses

/-- An entry that a request leaves in place stays unlinked, and one that was not
there is made by opening its path. -/
theorem entry_after (effect : Effect before event output after)
    (present : after.maps.get? path = some entry) :
    (∃ old, before.maps.get? path = some old ∧ (old.unlinked = true → entry.unlinked = true)) ∨
      before.maps.get? path = none ∧
        Opens path before.handles.nextId ⟨before, event, output, after⟩ ∧
        entry = ⟨.new, 1, false⟩ := by
  cases effect with
  | refused | rooted | unrooted => exact .inl ⟨entry, present, id⟩
  | @attached _ _ _ old found | @used _ _ old _ _ _ found | @detached _ _ old _ found =>
    rcases of_insert present with ⟨here, rfl⟩ | ⟨_, present⟩
    · exact .inl ⟨old, here ▸ found, id⟩
    · exact .inl ⟨entry, present, id⟩
  | @created dirfd other flags absent =>
    rcases of_insert present with ⟨rfl, rfl⟩ | ⟨_, present⟩
    · exact .inr ⟨absent, ⟨dirfd, flags, rfl, rfl⟩, rfl⟩
    · exact .inl ⟨entry, present, id⟩
  | @unlinked dirfd other flags old found =>
    rcases of_insert present with ⟨here, rfl⟩ | ⟨_, present⟩
    · exact .inl ⟨old, here ▸ found, fun _ => rfl⟩
    · exact .inl ⟨entry, present, id⟩
  | removed | freed =>
    exact .inl ⟨entry, (of_erase present).2, id⟩

theorem renewed_step {since} (run : shm.Run allowed history before)
    (late : since ≤ history.length) (renewed : Renewed since path history before)
    (effect : Effect before event output after) :
    Renewed since path (history ++ [⟨before, event, output, after⟩]) after := by
  intro entry present
  have there : after.maps.get? path ≠ none := present ▸ some_ne_none entry
  rcases entry_after effect present with ⟨old, found, unlinked⟩ | ⟨absent, _, _⟩
  · have here : before.maps.get? path ≠ none := found ▸ some_ne_none old
    rw [segmentOf_stays run here there]
    exact (renewed old found).imp_left unlinked
  right
  have unnamed := segmentOf_isSome run path
  rw [Table.contains, absent, isSome_none, isSome_eq_false_iff, isNone_iff_eq_none] at unnamed
  have contained : after.maps.contains path = true := isSome_iff_ne_none.mpr there
  refine ⟨history.length, ?_, late⟩
  rw [segmentOf_append]
  rw [if_pos contained, unnamed]
  rfl

theorem renewed_path (run : shm.Run allowed earlier origin) (vacated : Vacated path origin)
    (onward : shm.Path allowed origin later state) :
    Renewed earlier.length path (earlier ++ later) state := by
  induction onward with
  | start => exact fun entry present => .inl (vacated entry present)
  | step before permitted stepped ih =>
    rw [← append_assoc]
    refine renewed_step (run.append before) ?_ ih (step_effect stepped)
    rw [length_append]
    exact Nat.le_add_right _ _

theorem vacated_path (vacated : Vacated path origin) (onward : shm.Path allowed origin later state)
    (unopened : ∀ step ∈ later, ∀ id, ¬ Opens path id step) : Vacated path state := by
  induction onward with
  | start => exact vacated
  | step before permitted stepped ih =>
    intro entry present
    rcases entry_after (step_effect stepped) present with ⟨old, found, unlinked⟩ | ⟨_, opens, _⟩
    · refine unlinked (ih ?_ old found)
      exact fun step member => unopened step (mem_append_left _ member)
    · exact absurd opens (unopened _ (mem_append_right _ mem_cons_self) _)

theorem Settled.linked {dirfd flags} (settled : Settled this (.openat dirfd path flags))
    (found : this.maps.get? path = some entry) : entry.unlinked = false := by
  change ((this.maps.get? path).all fun entry => !entry.unlinked) = true at settled
  rw [found] at settled
  simpa using settled

theorem opens_linked (effect : Effect before event output after) (settled : Settled before event)
    (opens : Opens path id ⟨before, event, output, after⟩) :
    ∃ entry, after.maps.get? path = some entry ∧ entry.unlinked = false := by
  obtain ⟨dirfd, flags, event_eq, output_eq⟩ := opens
  subst event_eq output_eq
  cases effect with
  | attached found =>
    have linked := settled.linked found
    exact ⟨_, get?_insert_self _ _ _, linked⟩
  | created => exact ⟨_, get?_insert_self _ _ _, rfl⟩
  | used uses => cases uses

theorem opens_held (effect : Effect before event output after)
    (opens : Opens path id ⟨before, event, output, after⟩) :
    after.handles.get? id = some (.shm path) := by
  obtain ⟨dirfd, flags, event_eq, output_eq⟩ := opens
  subst event_eq
  generalize opened : (some (.ok (.thisScheme id)) : Option (Result Reply)) = reply at output_eq
  subst output_eq
  cases effect with
  | refused => cases opened
  | attached | created =>
    cases opened
    rw [get?_insert, if_pos rfl]
  | used uses => cases uses

/-- Unlinking a path takes the name away, and leaves the segment to its handles. -/
structure Unlinking (history : List Step) (state : ShmScheme) : Prop where
  named : ∀ id path, state.handles.get? id = some (.shm path) → state.maps.get? path ≠ none
  refs : ∀ path entry, state.maps.get? path = some entry →
    entry.refs = state.handles.count (· == .shm path)
  renamed : ∀ path earlier unlink middle opening later id,
    history = (earlier ++ [unlink]) ++ (middle ++ opening :: later) → Unlinks path unlink →
    Opens path id opening →
    segmentOf path ((earlier ++ [unlink]) ++ (middle ++ [opening])) ≠ segmentOf path earlier
  anew : ∀ path earlier unlink middle opening later dirfd flags,
    history = (earlier ++ [unlink]) ++ (middle ++ opening :: later) → Unlinks path unlink →
    (∀ step ∈ middle, ∀ id, ¬ Opens path id step) → opening.event = .openat dirfd path flags →
    opening.before.handles.get? dirfd = some .schemeRoot →
    if flags &&& O_CREAT = 0 then opening.output = some (.error .ENOENT)
    else (∃ id, Opens path id opening) ∧
      opening.after.maps.get? path = some ⟨.new, 1, false⟩
  kept : ∀ path earlier opening later id, history = earlier ++ opening :: later →
    Opens path id opening → state.handles.get? id = some (.shm path) →
    segmentOf path history = segmentOf path (earlier ++ [opening]) ∧
      (segmentOf path history).isSome = true
  freed : ∀ path entry, state.maps.get? path = some entry → entry.unlinked = true →
    ∃ id, state.handles.get? id = some (.shm path)

theorem openat_vacant {dirfd flags} (absent : before.maps.get? path = none)
    (root : before.handles.get? dirfd = some .schemeRoot)
    (stepped : shm.step before (.openat dirfd path flags) = some (after, output)) :
    if flags &&& O_CREAT = 0 then output = some (.error .ENOENT)
    else (∃ id, Opens path id ⟨before, .openat dirfd path flags, output, after⟩) ∧
      after.maps.get? path = some ⟨.new, 1, false⟩ := by
  obtain ⟨reply, rfl, done⟩ := of_replied stepped
  have held : before.handles.get dirfd = .ok .schemeRoot := by
    rw [HandleMap.get, root]
    rfl
  unfold ShmScheme.openat at done
  rw [held] at done
  rw [absent] at done
  dsimp only at done
  split at done
  next excluded =>
    rw [if_pos excluded]
    cases done
    rfl
  next creates =>
  rw [if_neg creates]
  cases done
  exact ⟨⟨_, dirfd, flags, rfl, rfl⟩, get?_insert_self _ _ _⟩

theorem exists_handle (accounted : Accounted this) (found : this.maps.get? path = some entry)
    (unlinked : entry.unlinked = true) : ∃ id, this.handles.get? id = some (.shm path) := by
  by_contra nobody
  have none_left : this.handles.count (· == .shm path) = 0 := by
    refine (count_eq_zero_iff _).mpr ?_
    intro id handle held
    refine beq_eq_false_iff_ne.mpr ?_
    rintro rfl
    exact nobody ⟨id, held⟩
  apply accounted.inUse path entry found unlinked
  exact (accounted.refs path entry found).trans none_left

/-- In every run that opens no path that was unlinked while its segment is held,
names follow the semantics of unlinking. -/
theorem unlink_semantics {history : List Step} {state : ShmScheme}
    (run : shm.Run Settled history state) : Unlinking history state := by
  have accounted := accounted_reachable ⟨_, run⟩
  -- the state that an unlinked path leaves, and the run up to the request that opens it
  have between : ∀ {path earlier unlink middle opening later},
      history = (earlier ++ [unlink]) ++ (middle ++ opening :: later) → Unlinks path unlink →
      ∃ origin, shm.Run Settled (earlier ++ [unlink]) origin ∧ Vacated path origin ∧
        shm.Path Settled origin middle opening.before ∧
        shm.step opening.before opening.event = some (opening.after, opening.output) ∧
        Settled opening.before opening.event := by
    intro path earlier unlink middle opening later same unlinks
    obtain ⟨first, unlinking, allowed, onward⟩ := run.split (same.trans (append_cons ..).symm)
    obtain ⟨reached, stepped, settled, -⟩ := onward.split rfl
    refine ⟨_, first.step allowed unlinking, ?_, reached, stepped, settled⟩
    exact unlinks_vacated (step_effect unlinking) unlinks
  refine ⟨accounted.named, accounted.refs, ?_, ?_, ?_, ?_⟩
  · intro path earlier unlink middle opening later id same unlinks opens
    obtain ⟨origin, first, vacated, onward, stepped, settled⟩ := between same unlinks
    have effect := step_effect stepped
    have late : (earlier ++ [unlink]).length ≤ (earlier ++ [unlink] ++ middle).length :=
      (sublist_append_left _ _).length_le
    have renewed := renewed_step (first.append onward) late
      (renewed_path first vacated onward) effect
    obtain ⟨entry, present, linked⟩ := opens_linked effect settled opens
    rcases renewed entry present with unlinked | ⟨number, names, since⟩
    · rw [linked] at unlinked
      cases unlinked
    rw [← append_assoc, names]
    intro equal
    have old := segmentOf_lt (first.split rfl).1 equal.symm
    rw [length_append] at since
    omega
  · intro path earlier unlink middle opening later dirfd flags same unlinks unopened event_eq root
    obtain ⟨origin, first, vacated, onward, stepped, settled⟩ := between same unlinks
    have absent : opening.before.maps.get? path = none := by
      cases present : opening.before.maps.get? path with
      | none => rfl
      | some entry =>
        have unlinked := vacated_path vacated onward unopened entry present
        rw [event_eq] at settled
        rw [settled.linked present] at unlinked
        cases unlinked
    obtain ⟨before, event, output, after⟩ := opening
    subst event_eq
    exact openat_vacant absent root stepped
  · intro path earlier opening later id same opens held
    obtain ⟨first, stepped, settled, onward⟩ := run.split same
    have opened := opens_held (step_effect stepped) opens
    have keeps := (handle_keeps (first.step settled stepped) onward opened).2 held
    rw [same, append_cons]
    refine ⟨keeps, ?_⟩
    rw [← append_cons, ← same, segmentOf_isSome run]
    exact isSome_iff_ne_none.mpr (accounted.named id path held)
  · exact fun path entry found unlinked => exists_handle accounted found unlinked

def renewal : List Event :=
  [.schemeRoot, .openat 1 [97] O_CREAT, .openat 1 [97] 0, .unlinkat 1 [97] 0, .close 2, .close 3,
    .openat 1 [97] 0, .openat 1 [97] O_CREAT]

theorem unlink_semantics_renewal :
    ∃ history state, shm.Run Settled history state ∧ history.length = 8 ∧
      segmentOf [97] history = some 7 ∧ Unlinking history state := by
  have run := shm.run_replay Settled renewal (by decide +kernel)
  exact ⟨_, _, run, rfl, rfl, unlink_semantics run⟩

/-- The path `"a"` is unlinked while it is open, and opened again. -/
def reopening : List Event :=
  [.schemeRoot, .openat 1 [97] O_CREAT, .unlinkat 1 [97] 0, .openat 1 [97] 0]

/-- The second handle is one on the segment that was unlinked. -/
theorem unlinked_path_reopens :
    ∃ history state, shm.Run (fun _ _ => True) history state ∧ ¬ Unlinking history state ∧
      state.handles.get? 3 = some (.shm [97]) ∧
      state.maps.get? [97] = some ⟨.new, 2, true⟩ := by
  have run := shm.run_replay (fun _ _ => True) reopening (by decide +kernel)
  refine ⟨_, _, run, ?_, rfl, rfl⟩
  intro unlinking
  exact unlinking.renamed [97] [_, _] _ [] _ [] 3 rfl ⟨1, 0, rfl, rfl⟩ ⟨1, 0, rfl, rfl⟩ rfl

end EosBase.Shm
