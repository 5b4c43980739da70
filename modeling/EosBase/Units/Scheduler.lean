import EosBase.Lib.Table
import Mathlib.Data.Fintype.EquivFin
import Mathlib.Data.List.Perm.Basic
import Mathlib.Logic.Relation
import Mathlib.Order.WellFounded

/-!
# Starting units

`Scheduler::schedule_start` loads a unit with everything that it requires, and queues the
units whose conditions are met.  `Scheduler::step` turns the queue around until each unit
has run, and holds a unit back only while a direct dependency is still in the queue.
-/

namespace EosBase.Units

open List Nat

abbrev UnitId := List Char

structure UnitInfo where
  defaultDependencies : Bool
  requiresWeak : List UnitId
  conditionArchitecture : Option (List String)
  conditionBoard : Option (List String)

def UnitInfo.conditionsMet (this : UnitInfo) (arch : String) (board : Option String) : Bool :=
  this.conditionArchitecture.all (fun archs => archs.any (· == arch)) &&
    this.conditionBoard.all fun boards => boards.any fun name => some name == board

structure UnitStore where
  units : Table UnitId UnitInfo
  runtimeTarget : Option UnitId

abbrev Files := UnitId → Option UnitInfo

namespace UnitStore

def loadSingleUnit (this : UnitStore) (files : Files) (unitId : UnitId) :
    Option (UnitStore × UnitInfo) :=
  (files unitId).map fun info =>
    let info :=
      if info.defaultDependencies then
        { info with requiresWeak := info.requiresWeak ++ this.runtimeTarget.toList }
      else info
    ({ this with units := this.units.insert unitId info }, info)

/-- The loop of `load_units`, some rounds of it; the top of the stack comes first. -/
def loadUnits (files : Files) : Nat → UnitStore → List UnitId → List UnitId →
    Option (UnitStore × List UnitId)
  | 0, _, _, _ => none
  | _ + 1, this, [], loadedUnits => some (this, loadedUnits)
  | rounds + 1, this, unitId :: pendingUnits, loadedUnits =>
    if this.units.contains unitId then loadUnits files rounds this pendingUnits loadedUnits
    else
      match this.loadSingleUnit files unitId with
      | none => loadUnits files rounds this pendingUnits loadedUnits
      | some (store, info) =>
        loadUnits files rounds store (info.requiresWeak.reverse ++ pendingUnits)
          (loadedUnits ++ [unitId])

def requiresWeak (this : UnitStore) (unitId : UnitId) : List UnitId :=
  ((this.units.get? unitId).map UnitInfo.requiresWeak).getD []

def Requires (this : UnitStore) (unitId dep : UnitId) : Prop := dep ∈ this.requiresWeak unitId

instance (this : UnitStore) (unitId dep : UnitId) : Decidable (this.Requires unitId dep) :=
  inferInstanceAs (Decidable (_ ∈ _))

end UnitStore

/-- `Scheduler::schedule_start` for a new scheduler: the store and the queue. -/
def scheduleStart (files : Files) (arch : String) (board : Option String) (rounds : Nat)
    (store : UnitStore) (root : UnitId) : Option (UnitStore × List UnitId) :=
  (store.loadUnits files rounds [root] []).map fun (store, loadedUnits) =>
    (store, loadedUnits.filter fun unitId =>
      (store.units.get? unitId).any fun info => info.conditionsMet arch board)

/-- The loop of `Scheduler::step`, some rounds of it, with the units that have run. -/
def step (requires : UnitId → List UnitId) : Nat → List UnitId → List UnitId → Option (List UnitId)
  | 0, _, _ => none
  | _ + 1, [], ran => some ran
  | rounds + 1, unit :: pending, ran =>
    if (requires unit).any fun dep => pending.contains dep then
      step requires rounds (pending ++ [unit]) ran
    else step requires rounds pending (ran ++ [unit])

variable {rounds : Nat} {result pending : List UnitId} {store : UnitStore}
  {requires : UnitId → List UnitId}

theorem loadUnits_nodup {files after loaded}
    (nodup : loaded.Nodup) (known : ∀ unitId ∈ loaded, store.units.contains unitId = true)
    (done : store.loadUnits files rounds pending loaded = some (after, result)) : result.Nodup := by
  induction rounds generalizing store pending loaded with
  | zero => cases done
  | succ rounds ih =>
    cases pending with
    | nil =>
      cases done
      exact nodup
    | cons unitId pending =>
      rw [UnitStore.loadUnits] at done
      split at done
      · exact ih nodup known done
      next fresh =>
      split at done
      · exact ih nodup known done
      next next info loads =>
      obtain ⟨parsed, _, same⟩ := Option.map_eq_some_iff.mp loads
      cases same
      apply ih _ _ done
      · refine nodup_append.mpr ⟨nodup, nodup_singleton _, ?_⟩
        rintro old member _ new rfl
        rw [mem_singleton.mp new] at member
        exact fresh (known unitId member)
      · intro old member
        rw [Table.contains, Table.get?_insert]
        split
        · rfl
        next other =>
        rcases mem_append.mp member with earlier | new
        · exact known old earlier
        · exact absurd (mem_singleton.mp new) other

section Running

theorem step_rotate {ran held rest}
    (blocked : ∀ unit ∈ held, ∃ dep ∈ requires unit, dep ≠ unit ∧ dep ∈ held ++ rest) :
    step requires (rounds + held.length) (held ++ rest) ran =
      step requires rounds (rest ++ held) ran := by
  induction held generalizing rest with
  | nil => rw [append_nil]; rfl
  | cons unit held ih =>
    obtain ⟨dep, required, different, queued⟩ := blocked unit (mem_cons_self ..)
    have waits : ((requires unit).any fun dep => (held ++ rest).contains dep) = true := by
      refine any_eq_true.mpr ⟨dep, required, ?_⟩
      rw [contains_iff_mem]
      exact (mem_cons.mp queued).resolve_left different
    rw [length_cons, ← add_assoc, cons_append, step, if_pos waits,
      append_assoc, ih, append_assoc, singleton_append]
    intro other member
    obtain ⟨dep, required, different, queued⟩ := blocked other (mem_cons_of_mem _ member)
    refine ⟨dep, required, different, ?_⟩
    simp only [cons_append, mem_cons, mem_append] at queued ⊢
    tauto

section

variable (acyclic : ∀ unit, ¬ Relation.TransGen (fun unit dep => dep ∈ requires unit) unit unit)

include acyclic

theorem exists_free (nonempty : pending ≠ []) :
    ∃ unit ∈ pending, ∀ dep ∈ requires unit, dep ∉ pending := by
  let before : pending.toFinset → pending.toFinset → Prop := fun dep unit =>
    Relation.TransGen (fun unit dep => dep ∈ requires unit) unit.1 dep.1
  have : Std.Irrefl before := ⟨fun unit => acyclic unit.1⟩
  obtain ⟨first, found⟩ := exists_mem_of_ne_nil _ nonempty
  obtain ⟨unit, _, least⟩ := (Finite.wellFounded_of_trans_of_irrefl before).has_min Set.univ
    ⟨⟨first, mem_toFinset.mpr found⟩, trivial⟩
  refine ⟨unit.1, mem_toFinset.mp unit.2, ?_⟩
  intro dep required queued
  exact least ⟨dep, mem_toFinset.mpr queued⟩ trivial (.single required)

theorem step_ends (nodup : pending.Nodup) (ran : List UnitId) :
    ∃ rounds order, step requires rounds pending ran = some (ran ++ order) ∧
      order.Perm pending ∧ ∀ unit ∈ pending, ∀ dep ∈ requires unit, dep ∈ pending →
        order.idxOf dep < order.idxOf unit := by
  induction size : pending.length generalizing pending ran with
  | zero =>
    rw [length_eq_zero_iff.mp size]
    exact ⟨1, [], by rw [append_nil]; rfl, .refl _, nofun⟩
  | succ count ih =>
    obtain ⟨free, found, alone⟩ := exists_free acyclic (ne_nil_of_length_eq_add_one size)
    -- The first such unit is the next one to run.
    obtain ⟨unit, first⟩ : ∃ unit, pending.find? (fun unit =>
        decide (∀ dep ∈ requires unit, dep ∉ pending)) = some unit := by
      rw [← Option.isSome_iff_exists, find?_isSome]
      exact ⟨free, found, decide_eq_true alone⟩
    obtain ⟨isFree, held, rest, split, before⟩ := find?_eq_some_iff_append.mp first
    have free := of_decide_eq_true isFree
    have turned : (unit :: (rest ++ held)).Perm pending := by
      rw [split]
      exact (perm_append_comm.cons unit).trans perm_middle.symm
    have turnedNodup := turned.nodup_iff.mpr nodup
    obtain ⟨unqueued, nodup⟩ := nodup_cons.mp turnedNodup
    have length : (rest ++ held).length = count := by
      have lengths := turned.length_eq
      rw [length_cons, size] at lengths
      exact succ.inj lengths
    obtain ⟨rounds, order, ends, perm, sorted⟩ :=
      ih nodup (ran ++ [unit]) length
    refine ⟨rounds + 1 + held.length, unit :: order, ?_, (perm.cons unit).trans turned, ?_⟩
    · have alone : ¬ ((requires unit).any fun dep => (rest ++ held).contains dep) = true := by
        simp only [any_eq_true, contains_iff_mem]
        rintro ⟨dep, required, queued⟩
        exact free dep required (turned.mem_iff.mp (mem_cons_of_mem _ queued))
      rw [split, step_rotate, cons_append, step, if_neg alone, ends, append_assoc, singleton_append]
      intro other member
      have blocked := before other member
      simp only [Bool.not_eq_true', decide_eq_false_iff_not] at blocked
      push Not at blocked
      obtain ⟨dep, required, queued⟩ := blocked
      refine ⟨dep, required, ?_, split ▸ queued⟩
      rintro rfl
      exact acyclic dep (.single required)
    · intro other member dep required queued
      have others : other ≠ unit := by
        rintro rfl
        exact free dep required queued
      rw [idxOf_cons_ne _ others.symm]
      rcases mem_cons.mp (turned.mem_iff.mpr queued) with rfl | later
      · rw [idxOf_cons_self]
        exact succ_pos _
      · rw [idxOf_cons_ne _ (by rintro rfl; exact unqueued later)]
        have still := (mem_cons.mp (turned.mem_iff.mpr member)).resolve_left others
        exact succ_lt_succ (sorted other still dep required later)

end

/-- A queue in which nothing comes before what it requires is worked off as it is. -/
theorem step_sorted {ran} (nodup : pending.Nodup)
    (sorted : ∀ unit ∈ pending, ∀ dep ∈ requires unit, dep ∈ pending →
      pending.idxOf dep < pending.idxOf unit)
    (done : step requires rounds pending ran = some result) : result = ran ++ pending := by
  induction pending generalizing rounds ran with
  | nil =>
    cases rounds <;> cases done
    exact (append_nil _).symm
  | cons unit rest ih =>
    obtain ⟨unqueued, nodup⟩ := nodup_cons.mp nodup
    cases rounds with
    | zero => cases done
    | succ rounds =>
      rw [step, if_neg] at done
      · rw [ih nodup ?_ done, append_assoc, singleton_append]
        intro other member dep required queued
        have order := sorted other (mem_cons_of_mem _ member) dep required
          (mem_cons_of_mem _ queued)
        rw [idxOf_cons_ne _ (by rintro rfl; exact unqueued queued),
          idxOf_cons_ne _ (by rintro rfl; exact unqueued member)] at order
        exact lt_of_succ_lt_succ order
      · simp only [any_eq_true, contains_iff_mem]
        rintro ⟨dep, required, queued⟩
        have order := sorted unit (mem_cons_self ..) dep required (mem_cons_of_mem _ queued)
        rw [idxOf_cons_self] at order
        exact not_lt_zero _ order

end Running

/-- A path that may use one more edge is a path without it or goes through it. -/
theorem path_of_added {Node : Type} {edge added} {source target : Node}
    (only : ∀ first second, added first second →
      edge first second ∨ first = source ∧ second = target) {first last : Node}
    (path : Relation.TransGen added first last) : Relation.TransGen edge first last ∨
      Relation.ReflTransGen edge first source ∧ Relation.ReflTransGen edge target last := by
  induction path with
  | single step =>
    rcases only _ _ step with old | ⟨rfl, rfl⟩
    · exact .inl (.single old)
    · exact .inr ⟨.refl, .refl⟩
  | tail _ step ih =>
    rcases only _ _ step with old | ⟨rfl, rfl⟩
    · rcases ih with all | ⟨before, behind⟩
      · exact .inl (all.tail old)
      · exact .inr ⟨before, behind.tail old⟩
    · rcases ih with all | ⟨before, _⟩
      · exact .inr ⟨all.to_reflTransGen, .refl⟩
      · exact .inr ⟨before, .refl⟩

def UnitStore.Among (this : UnitStore) (queue : List UnitId) (unitId dep : UnitId) : Prop :=
  this.Requires unitId dep ∧ unitId ∈ queue ∧ dep ∈ queue

/-- Some order of the queue runs a unit first that requires another one only through units
that are not in the queue. -/
theorem exists_early {queue unit dep}
    (acyclic : ∀ unit, ¬ Relation.TransGen store.Requires unit unit) (nodup : queue.Nodup)
    (queued : unit ∈ queue) (depQueued : dep ∈ queue) (different : unit ≠ dep)
    (hidden : ¬ Relation.TransGen (store.Among queue) unit dep) :
    ∃ turned, turned.Perm queue ∧ turned.idxOf unit < turned.idxOf dep ∧
      ∀ rounds order, step store.requiresWeak rounds turned [] = some order → order = turned := by
  -- The queue is sorted as if the other unit also required this one.
  let requires := fun other => (if other = dep then [unit] else []) ++
    (store.requiresWeak other).filter fun dep => decide (other ∈ queue ∧ dep ∈ queue)
  have only : ∀ other required, required ∈ requires other →
      store.Among queue other required ∨ other = dep ∧ required = unit := by
    intro other required member
    rcases mem_append.mp member with new | old
    · split at new
      next same => exact .inr ⟨same, mem_singleton.mp new⟩
      · cases new
    · obtain ⟨direct, both⟩ := mem_filter.mp old
      exact .inl ⟨direct, of_decide_eq_true both⟩
  have acyclicAdded : ∀ unit, ¬ Relation.TransGen (fun unit dep => dep ∈ requires unit)
      unit unit := by
    intro other cycle
    rcases path_of_added only cycle with old | ⟨before, behind⟩
    · exact acyclic other (old.lift id fun _ _ among => among.1)
    · rcases Relation.reflTransGen_iff_eq_or_transGen.mp (behind.trans before) with same | path
      · exact different same.symm
      · exact hidden path
  obtain ⟨_, turned, _, perm, sorted⟩ := step_ends acyclicAdded nodup []
  refine ⟨turned, perm, ?_, ?_⟩
  · refine sorted dep depQueued unit (mem_append_left _ ?_) queued
    rw [if_pos rfl]
    exact mem_singleton_self _
  · intro rounds order done
    refine step_sorted (perm.nodup_iff.mpr nodup) ?_ done
    intro other member required direct inside
    rw [perm.mem_iff] at member inside
    refine sorted other member required (mem_append_right _ ?_) inside
    exact mem_filter.mpr ⟨direct, decide_eq_true ⟨member, inside⟩⟩

/-- Where the dependencies of the loaded units have no cycle the queue is worked off, and each
unit runs once.  Every order of the queue runs a unit after everything in the queue that it
requires exactly when it requires that through units of the queue. -/
theorem units_started {files : Files} {arch : String} {board : Option String} {rounds : Nat}
    {store after : UnitStore} {root : UnitId} {queue : List UnitId}
    (scheduled : scheduleStart files arch board rounds store root = some (after, queue))
    (acyclic : ∀ unit, ¬ Relation.TransGen after.Requires unit unit) :
    (∀ turned, turned.Perm queue → ∃ enough order,
      step after.requiresWeak enough turned [] = some order ∧ order.Nodup ∧ order.Perm queue) ∧
    ((∀ turned, turned.Perm queue → ∃ enough order,
      step after.requiresWeak enough turned [] = some order ∧ ∀ unit ∈ queue, ∀ dep ∈ queue,
        Relation.TransGen after.Requires unit dep → order.idxOf dep < order.idxOf unit) ↔
    ∀ unit ∈ queue, ∀ dep ∈ queue, Relation.TransGen after.Requires unit dep →
      Relation.TransGen (after.Among queue) unit dep) := by
  have nodup : queue.Nodup := by
    obtain ⟨⟨_, loaded⟩, done, same⟩ := Option.map_eq_some_iff.mp scheduled
    cases same
    exact (loadUnits_nodup nodup_nil nofun done).filter _
  have ends := fun turned (perm : List.Perm turned queue) =>
    step_ends acyclic (perm.nodup_iff.mpr nodup) []
  refine ⟨?_, ?_, ?_⟩
  · intro turned perm
    obtain ⟨enough, order, ends, same, _⟩ := ends turned perm
    exact ⟨enough, order, ends, (same.trans perm).nodup_iff.mpr nodup, same.trans perm⟩
  · intro started unit queued dep depQueued reaches
    by_contra hidden
    have different : unit ≠ dep := by
      rintro rfl
      exact acyclic unit reaches
    obtain ⟨turned, perm, early, kept⟩ :=
      exists_early acyclic nodup queued depQueued different hidden
    obtain ⟨enough, order, ends, sorted⟩ := started turned perm
    cases kept enough order ends
    exact lt_asymm early (sorted unit queued dep depQueued reaches)
  · intro direct turned perm
    obtain ⟨enough, order, ends, _, sorted⟩ := ends turned perm
    refine ⟨enough, order, ends, ?_⟩
    intro unit queued dep depQueued reaches
    have path := direct unit queued dep depQueued reaches
    clear reaches depQueued
    have edges : ∀ {unit dep}, after.Among queue unit dep → order.idxOf dep < order.idxOf unit :=
      fun edge => sorted _ (perm.mem_iff.mpr edge.2.1) _ edge.1 (perm.mem_iff.mpr edge.2.2)
    induction path with
    | single edge => exact edges edge
    | tail _ edge ih => exact (edges edge).trans ih

/-- A unit that requires another one, as they are loaded. -/
def pair : UnitStore :=
  ⟨(Table.empty.insert ['a'] ⟨false, [['b']], none, none⟩).insert ['b'] ⟨false, [], none, none⟩,
    none⟩

theorem of_pair {unit dep} (required : pair.Requires unit dep) : unit = ['a'] ∧ dep = ['b'] := by
  simp only [UnitStore.Requires, UnitStore.requiresWeak, pair, Table.get?_insert] at required
  split at required
  · cases required
  split at required
  next same => exact ⟨same, mem_singleton.mp required⟩
  · cases required

/-- The second of the two runs first. -/
theorem units_started_pair :
    ∃ enough order, step pair.requiresWeak enough [['a'], ['b']] [] = some order ∧
      order.idxOf ['b'] < order.idxOf ['a'] := by
  have scheduled : scheduleStart pair.units.get? "x86_64" none 5 ⟨.empty, none⟩ ['a'] =
      some (pair, [['a'], ['b']]) := rfl
  have ends : ∀ {unit dep}, Relation.TransGen pair.Requires unit dep →
      unit = ['a'] ∧ dep = ['b'] := by
    intro unit dep path
    obtain ⟨_, first, _⟩ := Relation.TransGen.head'_iff.mp path
    obtain ⟨_, _, last⟩ := Relation.TransGen.tail'_iff.mp path
    exact ⟨(of_pair first).1, (of_pair last).2⟩
  obtain ⟨enough, order, done, sorted⟩ := (units_started scheduled fun unit cycle =>
    absurd ((ends cycle).1.symm.trans (ends cycle).2) (by decide)).2.mpr (by
      intro unit _ dep _ path
      obtain ⟨rfl, rfl⟩ := ends path
      exact .single ⟨by decide, by decide, by decide⟩) _ (.refl _)
  exact ⟨enough, order, done, sorted _ (by decide) _ (by decide) (.single (by decide))⟩

/-- `b` is for no architecture, so that `a` runs before `c`, which `b` requires. -/
theorem skipped_unit_hides_dependency : ∃ store, scheduleStart (fun
        | ['a'] => some ⟨false, [['b']], none, none⟩
        | ['b'] => some ⟨false, [['c']], some [], none⟩
        | ['c'] => some ⟨false, [], none, none⟩
        | _ => none) "x86_64" none 5 ⟨.empty, none⟩ ['a'] = some (store, [['a'], ['c']]) ∧
      store.Requires ['a'] ['b'] ∧ store.Requires ['b'] ['c'] ∧
      step store.requiresWeak 5 [['a'], ['c']] [] = some [['a'], ['c']] :=
  ⟨_, rfl, by decide, by decide, by decide⟩

end EosBase.Units
