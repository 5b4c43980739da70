import EosBase.Nsmgr.Scheme

/-!
# What a forked namespace contains

The buffer of a fork is a list of names, each behind its length.  A name that
ends in a star stands for every scheme that starts with what precedes the star.
-/

namespace EosBase.Nsmgr

open Redox List

def encodeNames (names : List Name) : List UInt8 :=
  names.flatMap fun name => leBytes wordSize name.length ++ name

/-- A scheme is listed by its own name or by the start of it and a star. -/
def Covers (listed name : Name) : Prop :=
  listed = name ∨ ∃ start, listed = start ++ [star] ∧ start <+: name

/-- Every scheme of the one table is in the other under the same descriptor. -/
def Copies (schemes copied : Table Name Fd) : Prop :=
  ∀ name fd, copied.get? name = some fd → schemes.get? name = some fd

variable {schemes copied : Table Name Fd} {name : Name} {fd : Fd} {crates : Crates}

section

variable (copies : Copies schemes copied)

include copies

theorem copies_insert
    (found : schemes.get? name = some fd) : Copies schemes (copied.insert name fd) := by
  intro other value present
  rcases Table.of_insert present with ⟨same, rfl⟩ | ⟨_, present⟩
  · rw [same]
    exact found
  · exact copies other value present

theorem get?_insert_copies {other value} (found : schemes.get? name = some fd) :
    (copied.insert name fd).get? other = some value ↔
      copied.get? other = some value ∨ (other = name ∧ value = fd) := by
  rw [Table.get?_insert]
  split
  next same =>
    subst same
    constructor
    · rintro ⟨rfl⟩
      exact .inr ⟨rfl, rfl⟩
    · rintro (present | ⟨_, rfl⟩)
      · rw [← found, copies other value present]
      · rfl
  next different =>
  constructor
  · exact .inl
  · rintro (present | ⟨same, _⟩)
    · exact present
    · exact absurd same different

theorem get?_insertMatching {start} : (insertMatching schemes start copied).get? name = some fd ↔
      copied.get? name = some fd ∨ (schemes.get? name = some fd ∧ start <+: name) := by
  -- The entries that are still to be visited are entries of the namespace.
  have visit : ∀ (entries : List (Σ _ : Name, Fd)) (copied : Table Name Fd),
      (∀ entry ∈ entries, schemes.get? entry.1 = some entry.2) → Copies schemes copied →
      ((entries.foldl (fun copied entry => copied.insert entry.1 entry.2) copied).get? name =
        some fd ↔ copied.get? name = some fd ∨ ⟨name, fd⟩ ∈ entries) := by
    intro entries
    induction entries with
    | nil => simp
    | cons entry entries ih =>
      intro copied present copies
      have found := present entry mem_cons_self
      have rest : ∀ later ∈ entries, schemes.get? later.1 = some later.2 :=
        fun later member => present later (mem_cons_of_mem _ member)
      rw [foldl_cons, ih _ rest (copies_insert copies found), get?_insert_copies copies found,
        mem_cons, or_assoc, Sigma.ext_iff, heq_eq_eq]
  rw [insertMatching, ← foldl_filter, visit _ copied ?_ copies, mem_filter,
    schemes.mem_entries_iff, isPrefixOf_iff_prefix]
  intro entry member
  exact (schemes.mem_entries_iff _ _).mp (mem_filter.mp member).1

end

theorem get?_insertListed (listed : Name) (copies : Copies schemes copied) (name : Name) (fd : Fd) :
    (insertListed schemes listed copied).get? name = some fd ↔
      copied.get? name = some fd ∨ (schemes.get? name = some fd ∧ Covers listed name) := by
  unfold insertListed
  split
  next starred =>
    have whole : listed = listed.dropLast ++ [star] :=
      (dropLast_append_getLast? star starred).symm
    rw [get?_insertMatching copies]
    apply or_congr_right
    apply and_congr_right
    intro _
    constructor
    · intro matching
      exact .inr ⟨_, whole, matching⟩
    · rintro (rfl | ⟨start, same, matching⟩)
      · exact dropLast_prefix _
      · rw [same, dropLast_concat]
        exact matching
  next plain =>
  -- Without a star only the name itself is meant.
  have only : Covers listed name ↔ listed = name := by
    constructor
    · rintro (same | ⟨start, rfl, _⟩)
      · exact same
      · exact absurd getLast?_concat plain
    · exact .inl
  rw [only]
  split
  next value found =>
    rw [get?_insert_copies copies found]
    apply or_congr_right
    constructor
    · rintro ⟨rfl, rfl⟩
      exact ⟨found, rfl⟩
    · rintro ⟨present, rfl⟩
      exact ⟨rfl, Option.some.inj (present.symm.trans found)⟩
  next missing =>
  constructor
  · exact .inl
  · rintro (kept | ⟨present, rfl⟩)
    · exact kept
    · rw [missing] at present
      cases present

theorem get?_foldl_insertListed {names : List Name} (copies : Copies schemes copied) :
    (names.foldl (fun copied listed => insertListed schemes listed copied) copied).get? name =
        some fd ↔
      copied.get? name = some fd ∨
        (schemes.get? name = some fd ∧ ∃ listed ∈ names, Covers listed name) := by
  induction names generalizing copied with
  | nil => simp
  | cons listed names ih =>
    have exactly := get?_insertListed listed copies
    have allCopied : Copies schemes _ := fun name fd found =>
      ((exactly name fd).mp found).elim (copies name fd) And.left
    rw [foldl_cons, ih allCopied, exactly]
    simp only [exists_mem_cons_iff]
    tauto

/-- A name that a record can hold. -/
def Crates.Lists (crates : Crates) (name : Name) : Prop :=
  name.length < 256 ^ wordSize ∧ crates.isUtf8 name = true

def Recorded (crates : Crates) (buf : List UInt8) : Prop :=
  ∃ names, buf = encodeNames names ∧ ∀ name ∈ names, crates.Lists name

/-- Behind some records is the length of one that does not fit. -/
def Overlong (crates : Crates) (buf : List UInt8) : Prop :=
  ∃ names len rest, buf = encodeNames names ++ (leBytes wordSize len ++ rest) ∧
    (∀ name ∈ names, crates.Lists name) ∧ len < 256 ^ wordSize ∧ rest.length < len

section

variable {this : Namespace} {copied : Table Name Fd} {rounds : Nat}

theorem forkLoop_word {len} (small : len < 256 ^ wordSize) {rest} :
    this.forkLoop crates (rounds + 1) (leBytes wordSize len ++ rest) copied =
      if rest.length < len then .error .panic else if crates.isUtf8 (rest.take len) then
        this.forkLoop crates rounds (rest.drop len)
          (insertListed this.schemes (rest.take len) copied) else .error (.errno .EINVAL) := by
  have nonempty : leBytes wordSize len ++ rest ≠ [] := by
    intro empty
    have length := congrArg length empty
    simp [wordSize] at length
  have read : readNum (leBytes wordSize len ++ rest) = .ok len := by
    simp [readNum, Redox.readNum, slice?, ofLeBytes_leBytes small, okOr, Except.mapError]
  have behind : (leBytes wordSize len ++ rest).drop wordSize = rest := by simp
  rw [Namespace.forkLoop, if_neg nonempty, read, behind]
  rfl

/-- The records are read, and the loop goes on behind them. -/
theorem forkLoop_names {names} (listed : ∀ name ∈ names, crates.Lists name)
    (rest : List UInt8) (rounds : Nat) (enough : (encodeNames names ++ rest).length ≤ rounds) :
    ∃ left, rest.length ≤ left ∧
      this.forkLoop crates rounds (encodeNames names ++ rest) copied =
        this.forkLoop crates left rest
          (names.foldl (fun copied listed => insertListed this.schemes listed copied) copied) := by
  induction names generalizing copied rounds with
  | nil => exact ⟨rounds, enough, rfl⟩
  | cons name names ih =>
    obtain ⟨⟨small, valid⟩, later⟩ := forall_mem_cons.mp listed
    have split : encodeNames (name :: names) ++ rest =
        leBytes wordSize name.length ++ (name ++ (encodeNames names ++ rest)) := by
      simp [encodeNames]
    rw [split] at enough ⊢
    simp only [length_append, length_leBytes, wordSize] at enough
    obtain ⟨left, rfl⟩ : ∃ left, rounds = left + 1 := ⟨rounds - 1, by omega⟩
    rw [forkLoop_word small, if_neg (by simp), take_left, drop_left, if_pos valid]
    apply ih later
    rw [length_append]
    omega

theorem forkLoop_outcome {buf} (enough : buf.length ≤ rounds) : Recorded crates buf ∨
      this.forkLoop crates rounds buf copied = .error (.errno .EINVAL) ∨
      Overlong crates buf := by
  induction rounds generalizing buf copied with
  | zero =>
    cases length_eq_zero_iff.mp (Nat.le_zero.mp enough)
    exact .inl ⟨[], rfl, by simp⟩
  | succ rounds ih =>
    by_cases empty : buf = []
    · exact .inl ⟨[], empty, by simp⟩
    by_cases short : buf.length < wordSize
    · have read : readNum buf = .error (.errno .EINVAL) := by
        simp [readNum, Redox.readNum, slice?, short.not_ge, okOr, Except.mapError]
      rw [Namespace.forkLoop, if_neg empty, read]
      exact .inr (.inl rfl)
    -- The word at the front is some length.
    have size : (buf.take wordSize).length = wordSize := length_take_of_le (not_lt.mp short)
    have small := ofLeBytes_lt (buf.take wordSize)
    have word := leBytes_ofLeBytes (buf.take wordSize)
    rw [size] at small word
    have split : buf = leBytes wordSize (ofLeBytes (buf.take wordSize)) ++ buf.drop wordSize := by
      rw [word, take_append_drop]
    generalize ofLeBytes (buf.take wordSize) = len, buf.drop wordSize = rest at small split
    subst split
    rw [forkLoop_word small]
    split
    next long => exact .inr (.inr ⟨[], len, rest, rfl, by simp, small, long⟩)
    next fits =>
    split
    next valid =>
      have length := length_take_of_le (not_lt.mp fits)
      have listed : crates.Lists (rest.take len) := ⟨length.trans_lt small, valid⟩
      have front (names : List Name) : encodeNames (rest.take len :: names) =
          leBytes wordSize len ++ (rest.take len ++ encodeNames names) := by
        simp [encodeNames, length]
      have shorter : (rest.drop len).length ≤ rounds := by
        simp only [length_append, length_leBytes, wordSize] at enough
        rw [length_drop]
        omega
      rcases ih shorter with ⟨names, same, all⟩ | refused | ⟨names, more, left, same, all, wide⟩
      · refine .inl ⟨rest.take len :: names, ?_, forall_mem_cons.mpr ⟨listed, all⟩⟩
        rw [front, ← same, take_append_drop]
      · exact .inr (.inl refused)
      · refine .inr (.inr ⟨rest.take len :: names, more, left, ?_,
          forall_mem_cons.mpr ⟨listed, all⟩, wide⟩)
        rw [front, append_assoc, append_assoc, ← same, take_append_drop]
    · exact .inr (.inl rfl)

theorem fork_names {names} (listed : ∀ name ∈ names, crates.Lists name) :
    this.fork crates (encodeNames names) = .ok
      ⟨names.foldl (fun copied listed => insertListed this.schemes listed copied) .empty⟩ := by
  obtain ⟨left, _, same⟩ := @forkLoop_names crates this .empty names listed []
    (encodeNames names).length (by simp)
  rw [append_nil] at same
  refine same.trans ?_
  cases left <;> rfl

theorem fork_overlong {buf} (overlong : Overlong crates buf) :
    this.fork crates buf = .error .panic := by
  obtain ⟨names, len, rest, rfl, listed, small, long⟩ := overlong
  obtain ⟨left, enough, same⟩ := @forkLoop_names crates this .empty names listed
    (leBytes wordSize len ++ rest) _ le_rfl
  simp only [length_append, length_leBytes, wordSize] at enough
  obtain ⟨less, rfl⟩ : ∃ less, left = less + 1 := ⟨left - 1, by omega⟩
  rw [forkLoop_word small, if_pos long] at same
  exact same

end

theorem fork_contains {this result : Namespace} {buf} (done : this.fork crates buf = .ok result) :
    ∃ names, buf = encodeNames names ∧ ∀ name fd, result.schemes.get? name = some fd ↔
      this.schemes.get? name = some fd ∧ ∃ listed ∈ names, Covers listed name := by
  have outcome := @forkLoop_outcome crates this .empty buf.length buf le_rfl
  rcases outcome with ⟨names, rfl, listed⟩ | refused | overlong
  · cases done.symm.trans (fork_names listed)
    have none : Copies this.schemes .empty := by
      intro name fd present
      cases present
    refine ⟨names, rfl, ?_⟩
    intro name fd
    rw [get?_foldl_insertListed none, Table.get?_empty]
    simp
  · cases done.symm.trans refused
  · cases done.symm.trans (fork_overlong overlong)

/-- The parser is total on a buffer unless a length in it is too large for what follows:
then it panics. -/
theorem fork_total_iff (crates : Crates) (this : Namespace) (buf : List UInt8) :
    (((∃ result, this.fork crates buf = .ok result) ∨
        this.fork crates buf = .error (.errno .EINVAL)) ∧
      ((∃ result, this.fork crates buf = .ok result) ↔ Recorded crates buf)) ↔
      ¬ Overlong crates buf := by
  have accepted : Recorded crates buf → ∃ result, this.fork crates buf = .ok result := by
    rintro ⟨names, rfl, listed⟩
    exact ⟨_, fork_names listed⟩
  constructor
  · rintro ⟨total, _⟩ overlong
    rw [fork_overlong overlong] at total
    simp at total
  · intro sized
    have outcome := @forkLoop_outcome crates this .empty buf.length buf le_rfl
    rcases outcome with recorded | refused | overlong
    · exact ⟨.inl (accepted recorded), fun _ => recorded, accepted⟩
    · refine ⟨.inr refused, ?_, accepted⟩
      rintro ⟨result, done⟩
      cases refused.symm.trans done
    · exact absurd overlong sized

/-- A record of one byte with nothing behind its length. -/
theorem fork_record_missing :
    Namespace.fork ⟨fun _ => none, fun _ => ∅, fun _ => none, fun _ => none, fun _ => true⟩
      ⟨.empty⟩ (leBytes wordSize 1) = .error .panic :=
  rfl

end EosBase.Nsmgr
