import EosBase.Shm.Scheme

/-!
# References to shared memory

`step_effect` takes every handler apart once.  Every handle has its entry, an
entry counts its handles, and an entry that was unlinked is freed with the last
of them.  A `MmapGuard` takes the size of its mapping from the length of its segment,
rounded up to whole pages.
-/

namespace EosBase.Shm

open Redox Table ShmScheme

inductive Event.Uses : Event → Prop where
  | fsize {id} : Uses (.fsize id)
  | ftruncate {id len mapped} : Uses (.ftruncate id len mapped)
  | mmapPrep {id offset size} : Uses (.mmapPrep id offset size)
  | read {id offset length} : Uses (.read id offset length)
  | write {id offset length mapped} : Uses (.write id offset length mapped)

inductive Effect (this : ShmScheme) : Event → Option (Result Reply) → ShmScheme → Prop where
  | refused {event error} : Effect this event (some (.error error)) this
  | rooted {output} :
      Effect this .schemeRoot output { this with handles := (this.handles.insert .schemeRoot).1 }
  | attached {dirfd path flags entry} : this.maps.get? path = some entry →
      Effect this (.openat dirfd path flags) (some (.ok (.thisScheme this.handles.nextId)))
        ⟨this.maps.insert path { entry with refs := entry.refs + 1 },
          (this.handles.insert (.shm path)).1⟩
  | created {dirfd path flags} : this.maps.get? path = none →
      Effect this (.openat dirfd path flags) (some (.ok (.thisScheme this.handles.nextId)))
        ⟨this.maps.insert path ⟨.new, 1, false⟩, (this.handles.insert (.shm path)).1⟩
  | unlinked {dirfd path flags entry} : this.maps.get? path = some entry → entry.refs ≠ 0 →
      Effect this (.unlinkat dirfd path flags) (some (.ok .done))
        { this with maps := this.maps.insert path { entry with unlinked := true } }
  | removed {dirfd path flags entry} : this.maps.get? path = some entry → entry.refs = 0 →
      Effect this (.unlinkat dirfd path flags) (some (.ok .done))
        { this with maps := this.maps.erase path }
  | used {event path entry buffer output} : event.Uses → this.maps.get? path = some entry →
      Effect this event output
        { this with maps := this.maps.insert path { entry with buffer := buffer } }
  | unrooted {id} : this.handles.get? id = some .schemeRoot →
      Effect this (.close id) none { this with handles := (this.handles.remove id).1 }
  | detached {id path entry} : this.handles.get? id = some (.shm path) →
      this.maps.get? path = some entry → entry.refs ≠ 0 →
      (entry.refs = 1 → entry.unlinked = false) →
      Effect this (.close id) none
        ⟨this.maps.insert path { entry with refs := entry.refs - 1 }, (this.handles.remove id).1⟩
  | freed {id path entry} : this.handles.get? id = some (.shm path) →
      this.maps.get? path = some entry → entry.refs = 1 → entry.unlinked = true →
      Effect this (.close id) none ⟨this.maps.erase path, (this.handles.remove id).1⟩

def Effects (this : ShmScheme) (event : Event) : Option (ShmScheme × Result Reply) → Prop :=
  Ends fun done => Effect this event (some done.2) done.1

variable {event : Event} {id : Nat} {path : Name} {this : ShmScheme}

namespace ShmScheme

theorem fail_effect {error} : Effects this event (this.fail error) := Effect.refused

theorem openat_effect {dirfd flags} :
    Effects this (.openat dirfd path flags) (this.openat dirfd path flags) := by
  unfold openat
  split
  · exact fail_effect
  · exact fail_effect
  split
  next entry found =>
    split
    · exact fail_effect
    · exact .attached found
  next absent =>
  split
  · exact fail_effect
  · exact .created absent

theorem unlinkat_effect {dirfd flags} :
    Effects this (.unlinkat dirfd path flags) (this.unlinkat dirfd path flags) := by
  unfold unlinkat
  split
  · exact fail_effect
  · exact fail_effect
  split
  · exact fail_effect
  split
  · exact fail_effect
  next entry found =>
  split
  next unused => exact .removed found unused
  next inUse => exact .unlinked found inUse

theorem withBuffer_effect {use} (uses : event.Uses) :
    Effects this event (this.withBuffer id use) := by
  unfold withBuffer
  split
  · exact fail_effect
  split
  · trivial
  next entry found =>
  split
  · exact fail_effect
  · exact .used uses found

theorem onClose_effect : Ends (Effect this (.close id) none) (this.onClose id) := by
  unfold onClose
  split
  · trivial
  next same =>
    obtain ⟨rfl, found⟩ := Prod.mk.inj same
    exact .unrooted found
  next path same =>
  obtain ⟨rfl, found⟩ := Prod.mk.inj same
  split
  · trivial
  next entry present =>
  split
  · trivial
  next some_left =>
  dsimp only
  split
  next last => exact .freed found present (by omega) last.2
  next more =>
  refine .detached found present some_left ?_
  intro one
  rw [one] at more
  simpa using more

end ShmScheme

theorem step_effect {output after} (stepped : shm.step this event = some (after, output)) :
    Effect this event output after := by
  cases event with
  | schemeRoot =>
    cases stepped
    exact .rooted
  | openat dirfd path flags => exact openat_effect.of_replied stepped
  | unlinkat dirfd path flags => exact unlinkat_effect.of_replied stepped
  | close id =>
    obtain ⟨state, done, same⟩ := Option.map_eq_some_iff.mp stepped
    cases same
    exact onClose_effect.of_eq done
  | fsize id => exact (withBuffer_effect .fsize).of_replied stepped
  | ftruncate id len mapped => exact (withBuffer_effect .ftruncate).of_replied stepped
  | mmapPrep id offset size => exact (withBuffer_effect .mmapPrep).of_replied stepped
  | read id offset length => exact (withBuffer_effect .read).of_replied stepped
  | write id offset length mapped => exact (withBuffer_effect .write).of_replied stepped

structure Accounted (this : ShmScheme) : Prop where
  named : ∀ id path, this.handles.get? id = some (.shm path) → this.maps.get? path ≠ none
  refs : ∀ path entry, this.maps.get? path = some entry →
    entry.refs = this.handles.count (· == .shm path)
  inUse : ∀ path entry, this.maps.get? path = some entry → entry.unlinked = true → entry.refs ≠ 0

/-- What the entry of a path says about the number of its handles. -/
def Counted : Option ShmHandle → Nat → Prop
  | none, handles => handles = 0
  | some entry, handles => entry.refs = handles ∧ (entry.unlinked = true → handles ≠ 0)

theorem accounted_of_counted
    (counts : ∀ path, Counted (this.maps.get? path) (this.handles.count (· == .shm path))) :
    Accounted this := by
  have entered : ∀ path entry, this.maps.get? path = some entry →
      Counted (some entry) (this.handles.count (· == .shm path)) :=
    fun path entry found => found ▸ counts path
  refine ⟨?_, fun path entry found => (entered path entry found).1, ?_⟩
  · intro id path held absent
    have nobody := counts path
    rw [absent, Counted, HandleMap.count_eq_zero_iff] at nobody
    simpa using nobody id _ held
  · intro path entry found unlinked
    obtain ⟨refs, inUse⟩ := entered path entry found
    rw [refs]
    exact inUse unlinked

theorem count_insert (other : Name) : (this.handles.insert (.shm path)).1.count (· == .shm other) =
      this.handles.count (· == .shm other) + if other = path then 1 else 0 := by
  rw [HandleMap.count_insert]
  simp only [beq_iff_eq, Handle.shm.injEq, @eq_comm _ path other]

theorem count_remove (held : this.handles.get? id = some (.shm path)) (other : Name) :
    (this.handles.remove id).1.count (· == .shm other) + (if other = path then 1 else 0) =
      this.handles.count (· == .shm other) := by
  rw [← HandleMap.count_remove _ held]
  simp only [beq_iff_eq, Handle.shm.injEq, @eq_comm _ path other]

namespace Accounted

section

variable (accounted : Accounted this)

include accounted

theorem counts (path : Name) :
    Counted (this.maps.get? path) (this.handles.count (· == .shm path)) := by
  cases found : this.maps.get? path with
  | none =>
    refine (HandleMap.count_eq_zero_iff _).mpr ?_
    intro id handle held
    refine beq_eq_false_iff_ne.mpr ?_
    rintro rfl
    exact accounted.named id path held found
  | some entry =>
    have refs := accounted.refs path entry found
    exact ⟨refs, refs ▸ accounted.inUse path entry found⟩

variable {handles : HandleMap Handle}
  (others : ∀ other, other ≠ path →
    handles.count (· == .shm other) = this.handles.count (· == .shm other))

include others

theorem insert {entry} (own : Counted (some entry) (handles.count (· == .shm path))) :
    Accounted ⟨this.maps.insert path entry, handles⟩ := by
  apply accounted_of_counted
  intro other
  by_cases here : other = path
  · rw [here, get?_insert_self]
    exact own
  · rw [get?_insert_of_ne _ here, others other here]
    exact accounted.counts other

theorem erase (own : handles.count (· == .shm path) = 0) :
    Accounted ⟨this.maps.erase path, handles⟩ := by
  apply accounted_of_counted
  intro other
  rw [get?_erase]
  split
  next here =>
    rw [here]
    exact own
  next elsewhere =>
    rw [others other elsewhere]
    exact accounted.counts other

end

theorem effect {output after} (accounted : Accounted this)
    (effect : Effect this event output after) :
    Accounted after := by
  have added : ∀ {path} other, other ≠ path →
      (this.handles.insert (.shm path)).1.count (· == .shm other) =
        this.handles.count (· == .shm other) := by
    intro path other different
    rw [count_insert, if_neg different, Nat.add_zero]
  have removed : ∀ {id path}, this.handles.get? id = some (.shm path) → ∀ other, other ≠ path →
      (this.handles.remove id).1.count (· == .shm other) =
        this.handles.count (· == .shm other) := by
    intro id path held other different
    rw [← count_remove held, if_neg different, Nat.add_zero]
  cases effect with
  | refused => exact accounted
  | rooted =>
    apply accounted_of_counted
    intro path
    rw [HandleMap.count_insert]
    exact accounted.counts path
  | @attached _ path _ entry found =>
    refine accounted.insert added ?_
    rw [count_insert, if_pos rfl]
    exact ⟨congrArg (· + 1) (accounted.refs path entry found), fun _ => Nat.succ_ne_zero _⟩
  | @created _ path _ absent =>
    have nobody := accounted.counts path
    rw [absent, Counted] at nobody
    refine accounted.insert added ?_
    rw [count_insert, if_pos rfl, nobody]
    exact ⟨rfl, fun _ => Nat.one_ne_zero⟩
  | @unlinked _ path _ entry found inUse =>
    have refs := accounted.refs path entry found
    exact accounted.insert (fun _ _ => rfl) ⟨refs, fun _ => refs ▸ inUse⟩
  | @removed _ path _ entry found unused =>
    exact accounted.erase (fun _ _ => rfl) ((accounted.refs path entry found).symm.trans unused)
  | @used _ path entry _ _ _ found =>
    have counts := accounted.counts path
    rw [found] at counts
    exact accounted.insert (fun _ _ => rfl) counts
  | @unrooted id found =>
    apply accounted_of_counted
    intro path
    have same : (this.handles.remove id).1.count (· == .shm path) =
        this.handles.count (· == .shm path) :=
      HandleMap.count_remove (· == Handle.shm path) found
    rw [same]
    exact accounted.counts path
  | @detached id path entry held found _ last =>
    have counted := count_remove held path
    rw [if_pos rfl, ← accounted.refs path entry found] at counted
    refine accounted.insert (removed held) ⟨by dsimp only; omega, ?_⟩
    intro unlinked none_left
    rw [none_left] at counted
    cases unlinked.symm.trans (last counted.symm)
  | @freed id path entry held found last =>
    have counted := count_remove held path
    rw [if_pos rfl, ← accounted.refs path entry found, last] at counted
    exact accounted.erase (removed held) (Nat.succ.inj counted)

theorem start : Accounted shm.start where
  named _ _ held := by cases held
  refs _ _ found := by cases found
  inUse _ _ found := by cases found

end Accounted

theorem accounted_reachable {allowed}
    (reached : shm.ReachableWhile allowed this) : Accounted this := by
  apply reached.invariant Accounted.start
  intro before event after output _ accounted _ stepped
  exact accounted.effect (step_effect stepped)

/-- Only the close of a number that is not open panics. -/
theorem panics_iff (reached : shm.Reachable this) (event : Event) :
    shm.step this event = none ↔ ∃ id, event = .close id ∧ this.handles.get? id = none := by
  have accounted := accounted_reachable reached
  have answers {id use} : this.withBuffer id use ≠ none := by
    unfold withBuffer
    split
    · exact nofun
    next path opened =>
    obtain ⟨handle, found, named⟩ := ok_of_bind opened
    cases handle <;> cases named
    have present := accounted.named id path (HandleMap.get_ok found)
    split
    · contradiction
    · split <;> exact nofun
  change step this event = none ↔ _
  cases event with
  | close id =>
    simp only [step, Option.map_eq_none_iff, Event.close.injEq, exists_eq_left']
    unfold onClose
    split
    next same => exact iff_of_true rfl (Prod.mk.inj same).2
    next same => simp [(Prod.mk.inj same).2]
    next path same =>
      have held := (Prod.mk.inj same).2
      rw [held]
      refine iff_of_false ?_ nofun
      split
      next absent => exact absurd absent (accounted.named id path held)
      next entry found =>
      have counted := count_remove held path
      rw [if_pos rfl, ← accounted.refs path entry found] at counted
      rw [if_neg (by omega)]
      dsimp only
      split <;> exact nofun
  | schemeRoot | openat | unlinkat =>
    simp only [step, replied, openat, unlinkat, fail, attach]
    grind
  | _ => exact iff_of_false (fun panicked => answers (Option.map_eq_none_iff.mp panicked)) nofun

theorem panics_iff_closed : ∃ this : ShmScheme, this.handles.get? 2 = some (.shm [97]) ∧
    shm.step this (.close 3) = none := by
  have reached := shm.reachable_replay [.schemeRoot, .openat 1 [97] O_CREAT] rfl
  exact ⟨_, rfl, (panics_iff reached (.close 3)).mpr ⟨3, rfl, rfl⟩⟩

/-- What is mapped lies in the pages of a segment unless the end of it wraps. -/
theorem MmapGuard.mmap_inside_iff (this : MmapGuard) {offset size : Nat} (positive : 0 < size)
    (offset_lt : offset < 2 ^ 64) (size_lt : size < 2 ^ 64) (len_lt : this.len < 2 ^ 64) :
    (this.mmap offset size = if offset + size ≤ (this.len + 4095) / 4096 * 4096 then
        .ok ((this.base + offset) % 2 ^ 64)
      else
        .error .ERANGE) ↔
      if this.len ≤ 2 ^ 64 - 4096 then
        offset + size < 2 ^ 64 ∨ wholePages this.len < offset + size - 2 ^ 64
      else
        2 ^ 64 ≤ offset + size := by
  rw [mmap, if_neg positive.ne', wholePages, PAGE_SIZE]
  split <;> split <;> split <;> simp only [reduceCtorEq, true_iff, false_iff] <;> omega

theorem MmapGuard.mmap_inside_page : MmapGuard.mmap ⟨65536, 4096⟩ 0 4096 = .ok 65536 :=
  (MmapGuard.mmap_inside_iff ⟨65536, 4096⟩ (by decide) (by decide) (by decide) (by decide)).mpr
    (by decide)

/-- The page before the segment. -/
theorem MmapGuard.mmap_outside : MmapGuard.mmap ⟨65536, 4096⟩ (2 ^ 64 - 4096) 4096 = .ok 61440 ∧
      ¬ 2 ^ 64 - 4096 + 4096 ≤ (4096 + 4095) / 4096 * 4096 := by
  decide

end EosBase.Shm
