import Mathlib.Algebra.Order.Ring.Nat
import Mathlib.Data.List.Sort
import Mathlib.Order.Compare

/-!
# Ordered maps searched by comparison

A B-tree keeps its entries in one left-to-right order and finds a key by
comparing it with some entries on the way down.  Each comparison discards what
lies on one side of the entry it met.  Which entry is met next depends on the
shape of the tree, and a tree shape is a `pivot`: a position for each interval
that is still open.  The lookup of a single leaf, which scans from the left, is
the pivot that is constantly zero.

The comparison of a lookup need not agree with the order of the entries.
`search_eq_some_iff` says exactly when a position is found all the same.
-/

namespace EosBase

open List Nat Option

universe u v

variable {pivot : Nat → Nat → Nat}

section Search

variable {Elem : Type u}

/-- The next position to compare in the open interval from `low` to `high`. -/
def probeAt (pivot : Nat → Nat → Nat) (low high : Nat) : Nat :=
  low + pivot low high % (high - low)

variable {low high : Nat}

theorem probeAt_bounds (pivot : Nat → Nat → Nat) (nonempty : low < high) :
    low ≤ probeAt pivot low high ∧ probeAt pivot low high < high := by
  have bound : pivot low high % (high - low) < high - low :=
    mod_lt _ (by omega)
  unfold probeAt
  omega

/-- Search between two positions.  `probe` compares the wanted key with an
element: `lt` goes left, `gt` goes right. -/
def search (probe : Elem → Ordering) (pivot : Nat → Nat → Nat) (elems : List Elem) :
    (fuel low high : Nat) → Option Nat
  | 0, _, _ => none
  | fuel + 1, low, high =>
    if low < high then
      match elems[probeAt pivot low high]? with
      | none => none
      | some elem =>
        match probe elem with
        | .eq => some (probeAt pivot low high)
        | .lt => search probe pivot elems fuel low (probeAt pivot low high)
        | .gt => search probe pivot elems fuel (probeAt pivot low high + 1) high
    else
      none

/-- The positions that a search meets before it can reach `goal`.  They depend
on the shape alone, not on the elements. -/
def visited (pivot : Nat → Nat → Nat) (goal : Nat) : (fuel low high : Nat) → List Nat
  | 0, _, _ => []
  | fuel + 1, low, high =>
    if low < high then
      if goal < probeAt pivot low high then
        probeAt pivot low high :: visited pivot goal fuel low (probeAt pivot low high)
      else if probeAt pivot low high < goal then
        probeAt pivot low high :: visited pivot goal fuel (probeAt pivot low high + 1) high
      else
        []
    else
      []

/-- Does the comparison met at `position` send the search towards `goal`? -/
def Directs (probe : Elem → Ordering) (elems : List Elem) (goal position : Nat) : Prop :=
  ∀ elem, elems[position]? = some elem →
    (goal < position → probe elem = .lt) ∧ (position < goal → probe elem = .gt)

variable {probe : Elem → Ordering} {elems : List Elem}

/-- What a search finds lies within its bounds and compares equal. -/
theorem search_found {fuel position}
    (found : search probe pivot elems fuel low high = some position) :
    (low ≤ position ∧ position < high) ∧
      ∃ elem, elems[position]? = some elem ∧ probe elem = .eq := by
  induction fuel generalizing low high with
  | zero => simp [search] at found
  | succ fuel ih =>
    unfold search at found
    split at found
    next nonempty =>
      have bounds := probeAt_bounds pivot nonempty
      split at found
      next outside => simp at found
      next elem inside =>
      split at found
      next equal =>
        simp only [some.injEq] at found
        subst found
        exact ⟨bounds, elem, inside, equal⟩
      next less =>
        obtain ⟨within, sound⟩ := ih found
        exact ⟨by omega, sound⟩
      next greater =>
      obtain ⟨within, sound⟩ := ih found
      exact ⟨by omega, sound⟩
    next empty => simp at found

/-- A search finds a position exactly when the element there compares equal
and every comparison on the way sends the search towards it. -/
theorem search_eq_some_iff {fuel goal} (enough : high - low ≤ fuel)
    (inside : high ≤ elems.length) (above : low ≤ goal) (below : goal < high) :
    search probe pivot elems fuel low high = some goal ↔
      (∃ elem, elems[goal]? = some elem ∧ probe elem = .eq) ∧
        ∀ position ∈ visited pivot goal fuel low high, Directs probe elems goal position := by
  induction fuel generalizing low high with
  | zero => omega
  | succ fuel ih =>
    have nonempty : low < high := by omega
    have bounds := probeAt_bounds pivot nonempty
    have present : probeAt pivot low high < elems.length := by omega
    obtain ⟨elem, atProbe⟩ : ∃ elem, elems[probeAt pivot low high]? = some elem :=
      ⟨_, List.getElem?_eq_getElem present⟩
    unfold search visited
    simp only [nonempty, if_true, atProbe]
    rcases lt_trichotomy goal (probeAt pivot low high) with left | here | right
    · -- The goal is on the left, so the comparison has to answer `lt`.
      simp only [left, if_true, forall_mem_cons]
      have recursion := @ih low (probeAt pivot low high) (by omega) (by omega) above left
      have directs : Directs probe elems goal (probeAt pivot low high) ↔ probe elem = .lt := by
        simp [Directs, atProbe, left, not_lt_of_gt left]
      rw [directs]
      cases compared : probe elem with
      | lt => simpa using recursion
      | eq => simp; omega
      | gt =>
        simp only [reduceCtorEq, false_and, and_false, iff_false]
        intro found
        have := (search_found found).1
        omega
    · -- The search is at its goal.
      subst here
      simp only [lt_irrefl, if_false, not_mem_nil, false_implies, implies_true, and_true]
      constructor
      · intro found
        have sound : ∃ elem', elems[probeAt pivot low high]? = some elem' ∧ probe elem' = .eq := by
          cases compared : probe elem with
          | eq => exact ⟨elem, atProbe, compared⟩
          | lt | gt =>
            simp only [compared] at found
            have := (search_found found).1
            omega
        exact sound
      · rintro ⟨other, atGoal, equal⟩
        cases atProbe.symm.trans atGoal
        simp [equal]
    · simp only [right, if_true, not_lt_of_gt right, if_false, forall_mem_cons]
      have recursion := @ih (probeAt pivot low high + 1) high (by omega) inside (by omega) below
      have directs : Directs probe elems goal (probeAt pivot low high) ↔ probe elem = .gt := by
        simp [Directs, atProbe, right, not_lt_of_gt right]
      rw [directs]
      cases compared : probe elem with
      | gt => simpa using recursion
      | eq => simp; omega
      | lt =>
        simp only [reduceCtorEq, false_and, and_false, iff_false]
        intro found
        have := (search_found found).1
        omega

end Search

/-- An ordered map, as the left-to-right order of its entries. -/
structure BTreeMap (Key : Type u) (Value : Type v) where
  entries : List (Key × Value)

namespace BTreeMap

variable {Key : Type u} {Value : Type v} (cmp : Key → Key → Ordering)

def empty : BTreeMap Key Value := ⟨[]⟩

def position (pivot : Nat → Nat → Nat) (map : BTreeMap Key Value) (key : Key) : Option Nat :=
  search (fun entry : Key × Value => cmp key entry.1) pivot map.entries
    map.entries.length 0 map.entries.length

def getKeyValue (pivot : Nat → Nat → Nat) (map : BTreeMap Key Value) (key : Key) :
    Option (Key × Value) :=
  (map.position cmp pivot key).bind fun index => map.entries[index]?

def remove (pivot : Nat → Nat → Nat) (map : BTreeMap Key Value) (key : Key) : BTreeMap Key Value :=
  match map.position cmp pivot key with
  | some index => ⟨map.entries.eraseIdx index⟩
  | none => map

def firstKeyValue (map : BTreeMap Key Value) : Option (Key × Value) :=
  map.entries.head?

/-- Put an entry where the comparison wants it; an entry that compares equal is
handed to `merge`. -/
def place (merge : Key × Value → Key × Value) (entry : Key × Value) :
    List (Key × Value) → List (Key × Value)
  | [] => [entry]
  | head :: rest =>
    match cmp entry.1 head.1 with
    | .lt => entry :: head :: rest
    | .eq => merge head :: rest
    | .gt => head :: place merge entry rest

/-- Insert a value.  The key of an entry that compares equal stays as it was. -/
def insert (map : BTreeMap Key Value) (key : Key) (value : Value) : BTreeMap Key Value :=
  ⟨place cmp (fun old => (old.1, value)) (key, value) map.entries⟩

def append (map other : BTreeMap Key Value) : BTreeMap Key Value :=
  ⟨other.entries.foldl (fun entries entry => place cmp (fun _ => entry) entry entries) map.entries⟩

section Ranked

-- Keys that are all compared through a number behave as in any ordered map, in a tree of
-- any shape.

variable {cmp} {rank : Key → Nat}

def OrderedBy (rank : Key → Nat) (entries : List (Key × Value)) : Prop :=
  entries.Pairwise fun first second => rank first.1 < rank second.1

/-- Comparing `key` with the stored keys is comparing ranks. -/
def Ranks (cmp : Key → Key → Ordering) (rank : Key → Nat) (key : Key)
    (entries : List (Key × Value)) : Prop :=
  ∀ entry ∈ entries, cmp key entry.1 = compare (rank key) (rank entry.1)

variable {entries : List (Key × Value)}

theorem OrderedBy.eq_of_rank_eq {first second} (ordered : OrderedBy rank entries)
    (firstMem : first ∈ entries) (secondMem : second ∈ entries)
    (same : rank first.1 = rank second.1) : first = second := by
  have distinct : (entries.map fun entry => rank entry.1).Nodup :=
    pairwise_map.mpr (ordered.imp ne_of_lt)
  exact inj_on_of_nodup_map distinct firstMem secondMem same

variable {entry : Key × Value} {merge : Key × Value → Key × Value}

/-- Where an entry is placed: between those of smaller and of larger rank. -/
theorem place_cases (merge : Key × Value → Key × Value) (ordered : OrderedBy rank entries)
    (ranks : Ranks cmp rank entry.1 entries) :
    ∃ below above, (∀ old ∈ below, rank old.1 < rank entry.1) ∧
      (∀ old ∈ above, rank entry.1 < rank old.1) ∧
      ((entries = below ++ above ∧ place cmp merge entry entries = below ++ entry :: above) ∨
        ∃ old, rank old.1 = rank entry.1 ∧ entries = below ++ old :: above ∧
          place cmp merge entry entries = below ++ merge old :: above) := by
  induction entries with
  | nil => exact ⟨[], [], by simp [place]⟩
  | cons head rest ih =>
    rcases pairwise_cons.mp ordered with ⟨later, orderedRest⟩
    have compared := ranks head mem_cons_self
    unfold place
    rcases Nat.lt_trichotomy (rank entry.1) (rank head.1) with less | equal | greater
    · rw [compared, Nat.compare_eq_lt.mpr less]
      have larger : ∀ old ∈ rest, rank entry.1 < rank old.1 :=
        fun old member => less.trans (later old member)
      exact ⟨[], head :: rest, by simp, forall_mem_cons.mpr ⟨less, larger⟩, .inl ⟨rfl, rfl⟩⟩
    · rw [compared, Nat.compare_eq_eq.mpr equal]
      have larger : ∀ old ∈ rest, rank entry.1 < rank old.1 :=
        fun old member => equal.trans_lt (later old member)
      exact ⟨[], rest, by simp, larger, .inr ⟨head, equal.symm, rfl, rfl⟩⟩
    · rw [compared, Nat.compare_eq_gt.mpr greater]
      obtain ⟨below, above, small, large, placed⟩ := ih orderedRest
        fun old member => ranks old (mem_cons_of_mem _ member)
      refine ⟨head :: below, above, forall_mem_cons.mpr ⟨greater, small⟩, large, ?_⟩
      simpa using placed

/-- All that placing an entry does to an ordered map. -/
theorem mem_place_iff (ordered : OrderedBy rank entries) (ranks : Ranks cmp rank entry.1 entries)
    (candidate : Key × Value) :
    candidate ∈ place cmp merge entry entries ↔
      (candidate ∈ entries ∧ rank candidate.1 ≠ rank entry.1) ∨
      (∃ old ∈ entries, rank old.1 = rank entry.1 ∧ candidate = merge old) ∨
      ((∀ old ∈ entries, rank old.1 ≠ rank entry.1) ∧ candidate = entry) := by
  obtain ⟨below, above, small, large, ⟨rfl, placed⟩ | ⟨old, same, rfl, placed⟩⟩ :=
    place_cases merge ordered ranks
  · grind
  · grind

theorem OrderedBy.between {below above}
    (ordered : OrderedBy rank (below ++ above)) (small : ∀ old ∈ below, rank old.1 < rank entry.1)
    (large : ∀ old ∈ above, rank entry.1 < rank old.1) :
    OrderedBy rank (below ++ entry :: above) := by
  obtain ⟨first, second, across⟩ := pairwise_append.mp ordered
  refine pairwise_append.mpr ⟨first, pairwise_cons.mpr ⟨large, second⟩, ?_⟩
  intro old inside other member
  rcases mem_cons.mp member with rfl | later
  · exact small old inside
  · exact across old inside other later

theorem OrderedBy.place (ordered : OrderedBy rank entries) (ranks : Ranks cmp rank entry.1 entries)
    (keeps : ∀ old ∈ entries, rank old.1 = rank entry.1 → rank (merge old).1 = rank entry.1) :
    OrderedBy rank (place cmp merge entry entries) := by
  obtain ⟨below, above, small, large, ⟨rfl, placed⟩ | ⟨old, same, rfl, placed⟩⟩ :=
    place_cases merge ordered ranks
  · rw [placed]
    exact ordered.between small large
  · have merged := keeps old (by simp) same
    rw [placed]
    apply OrderedBy.between (ordered.sublist (by simp))
    · rwa [merged]
    · rwa [merged]

variable {index : Nat}

/-- A lookup by rank finds the entry of that rank, whatever the shape. -/
theorem position_of_rank_eq {map : BTreeMap Key Value} {key}
    (ordered : OrderedBy rank map.entries) (ranks : Ranks cmp rank key map.entries)
    (inside : map.entries[index]? = some entry) (same : rank entry.1 = rank key) :
    map.position cmp pivot key = some index := by
  have bound : index < map.entries.length := (List.getElem?_eq_some_iff.mp inside).1
  refine (search_eq_some_iff (by omega) le_rfl (zero_le _) bound).mpr ⟨⟨entry, inside, ?_⟩, ?_⟩
  · rw [ranks entry (mem_of_getElem? inside), same]
    exact Nat.compare_eq_eq.mpr rfl
  · intro place _ other atPlace
    have placeBound := (List.getElem?_eq_some_iff.mp atPlace).1
    have strictly := pairwise_iff_getElem.mp ordered
    rw [List.getElem?_eq_getElem bound, some.injEq] at inside
    rw [List.getElem?_eq_getElem placeBound, some.injEq] at atPlace
    have compared := ranks other (by rw [← atPlace]; exact getElem_mem _)
    simp only [compared]
    constructor
    · intro before
      have := strictly index place bound placeBound before
      rw [inside, atPlace] at this
      exact Nat.compare_eq_lt.mpr (by omega)
    · intro after
      have := strictly place index placeBound bound after
      rw [inside, atPlace] at this
      exact Nat.compare_eq_gt.mpr (by omega)

/-- Erasing a position of an ordered map takes away that entry and no other. -/
theorem OrderedBy.mem_eraseIdx_iff {candidate} (ordered : OrderedBy rank entries)
    (inside : entries[index]? = some entry) : candidate ∈ entries.eraseIdx index ↔
      candidate ∈ entries ∧ rank candidate.1 ≠ rank entry.1 := by
  rw [mem_eraseIdx_iff_getElem?]
  have strictly := pairwise_iff_getElem.mp ordered
  constructor
  · rintro ⟨other, different, atOther⟩
    refine ⟨mem_of_getElem? atOther, ?_⟩
    obtain ⟨bound, rfl⟩ := List.getElem?_eq_some_iff.mp inside
    obtain ⟨otherBound, rfl⟩ := List.getElem?_eq_some_iff.mp atOther
    rcases lt_or_gt_of_ne different with before | after
    · exact (strictly other index otherBound bound before).ne
    · exact (strictly index other bound otherBound after).ne'
  · rintro ⟨member, different⟩
    obtain ⟨other, atOther⟩ := List.getElem?_of_mem member
    refine ⟨other, ?_, atOther⟩
    rintro rfl
    rw [inside, some.injEq] at atOther
    exact different (by rw [atOther])

end Ranked

end BTreeMap

end EosBase
