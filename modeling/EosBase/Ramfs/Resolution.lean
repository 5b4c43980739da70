import EosBase.Ramfs.Walk

/-!
# Which paths are resolved by their names

The meaning of a path is lexical: a dot stands for nothing and two dots take back the
name before them.  The names that remain are followed from the root.  A path is
resolved that way in every file system exactly when each of its dots is directly
followed by a name and two dots come first if at all.
-/

namespace EosBase.Ramfs

open Redox Filesystem List

/-- The names that remain of a path when one more part is read. -/
def cancel (kept : List Name) (part : Name) : List Name :=
  if part = dot then kept
  else if part = dotDot then kept.dropLast
  else kept ++ [part]

def lexical (path : Name) : List Name :=
  ((path.splitOn slash).filter (· ≠ [])).foldl cancel []

inductive Search where
  | found (inode : Nat)
  | missing
  | denied

def search (this : Filesystem) (uid gid : Nat) : List Name → Nat → Search
  | names, inode =>
    match this.files.get? inode with
    | none => .missing
    | some file =>
      match names with
      | [] => .found inode
      | name :: rest =>
        match file.data with
        | .file _ => .missing
        | .directory dentries =>
          if currentPerm file uid gid &&& 0o1 = 0 then
            .denied
          else
            match dentries.get? name with
            | none => .missing
            | some next => search this uid gid rest next

def Search.Answers : Search → Option (Result Nat) → Prop
  | found inode, answer => answer = some (.ok inode)
  | denied, answer => answer = some (.error .EACCES)
  | missing, answer => ∃ error, error ≠ .EACCES ∧ answer = some (.error error)

def ResolvesLexically (this : Filesystem) (path : Name) (uid gid : Nat) : Prop :=
  (search this uid gid (lexical path) ROOT_INODE).Answers (this.resolve path uid gid)

def Ordinary (part : Name) : Prop := part ≠ dot ∧ part ≠ dotDot

instance (part : Name) : Decidable (Ordinary part) :=
  inferInstanceAs (Decidable (_ ∧ _))

/-- Each dot, or two of them, is directly followed by an ordinary name. -/
def Followed : List Name → Prop
  | [] => True
  | [part] => Ordinary part
  | part :: next :: rest => (Ordinary part ∨ Ordinary next) ∧ Followed (next :: rest)

def Plain (parts : List Name) : Prop := Followed parts ∧ dotDot ∉ parts.tail

def ordinaryNames (parts : List Name) : List Name := parts.filter (Ordinary ·)

variable {rest : List Name} {part : Name} {this : Filesystem} {uid gid inode : Nat} {file : File}
  {name : Name} {names parts : List Name} {height : Nat} {path : Name}

theorem Followed.tail (followed : Followed (part :: rest)) : Followed rest := by
  cases rest with
  | nil => trivial
  | cons next rest => exact followed.2

theorem Followed.cons (ordinary : Ordinary part)
    (followed : Followed rest) : Followed (part :: rest) := by
  cases rest with
  | nil => exact ordinary
  | cons next rest => exact ⟨Or.inl ordinary, followed⟩

theorem not_ordinary_iff : ¬ Ordinary part ↔ part = dot ∨ part = dotDot := by
  rw [Ordinary, not_and_or, not_not, not_not]

theorem ordinaryNames_cons_of_ordinary (ordinary : Ordinary part) :
    ordinaryNames (part :: rest) = part :: ordinaryNames rest :=
  filter_cons_of_pos (decide_eq_true ordinary)

theorem ordinaryNames_cons_of_dots (dots : part = dot ∨ part = dotDot) :
    ordinaryNames (part :: rest) = ordinaryNames rest := by
  apply filter_cons_of_neg
  rw [decide_eq_true_eq]
  exact not_ordinary_iff.mpr dots

theorem Followed.ordinaryNames_cons (followed : Followed (part :: rest)) :
    ∃ name names, ordinaryNames (part :: rest) = name :: names := by
  by_cases ordinary : Ordinary part
  · exact ⟨part, _, ordinaryNames_cons_of_ordinary ordinary⟩
  rw [ordinaryNames_cons_of_dots (not_ordinary_iff.mp ordinary)]
  cases rest with
  | nil => exact absurd followed ordinary
  | cons next rest =>
    exact ⟨next, _, ordinaryNames_cons_of_ordinary (followed.1.resolve_left ordinary)⟩

theorem search_cons {dentries} (present : this.files.get? inode = some file)
    (isDirectory : file.data = .directory dentries)
    (allowed : ¬ currentPerm file uid gid &&& 0o1 = 0) :
    search this uid gid (name :: rest) inode =
      match dentries.get? name with
      | none => .missing
      | some next => search this uid gid rest next := by
  rw [search, present]
  simp only [isDirectory, if_neg allowed]

theorem search_absent (absent : this.files.get? inode = none) :
    search this uid gid names inode = .missing := by
  cases names <;> rw [search, absent]

theorem answers_of_enter_error {dentries} {error : Errno}
    (failed : this.enter dentries name = .error error) :
    (match dentries.get? name with
      | none => Search.missing
      | some next => search this uid gid rest next).Answers (some (.error error)) := by
  cases named : dentries.get? name with
  | none =>
    rw [enter, named] at failed
    cases failed
    exact ⟨.ENOENT, nofun, rfl⟩
  | some next =>
    cases found : this.files.get? next with
    | none =>
      simp only [enter, named, okOr, bind, Except.bind, found] at failed
      cases failed
      simp only [search_absent found]
      exact ⟨ Errno.EIO, nofun, rfl⟩
    | some file =>
      simp only [enter, named, okOr, bind, Except.bind, found] at failed
      cases failed

theorem search_answers_walk (followed : Followed parts)
    (present : this.files.get? inode = some file) :
    (search this uid gid (ordinaryNames parts) inode).Answers
      (this.walk uid gid parts inode file) := by
  fun_induction walk this uid gid parts inode file with
  | case1 inode file =>
    rw [ordinaryNames, filter_nil, search, present]
    rfl
  | case2 part rest inode file bytes isFile =>
    obtain ⟨name, names, nonempty⟩ := followed.ordinaryNames_cons
    rw [nonempty, search, present]
    simp only [isFile]
    exact ⟨.ENOENT, by simp, rfl⟩
  | case3 part rest inode file dentries isDirectory denied =>
    obtain ⟨name, names, nonempty⟩ := followed.ordinaryNames_cons
    rw [nonempty, search, present]
    simp only [isDirectory, if_pos denied]
    rfl
  | case4 part inode file dentries isDirectory _ dots =>
    exact absurd followed (not_ordinary_iff.mpr dots)
  | case5 part inode file dentries isDirectory allowed dots next rest error failed =>
    have ordinary := followed.1.resolve_left (not_ordinary_iff.mpr dots)
    rw [ordinaryNames_cons_of_dots dots, ordinaryNames_cons_of_ordinary ordinary,
      search_cons present isDirectory allowed]
    exact answers_of_enter_error failed
  | case6 part inode file dentries isDirectory allowed dots next rest entered final step
      ih =>
      have ordinary := followed.1.resolve_left (not_ordinary_iff.mpr dots)
      obtain ⟨named, found⟩ := enter_ok step
      rw [ordinaryNames_cons_of_dots dots, ordinaryNames_cons_of_ordinary ordinary,
        search_cons present isDirectory allowed, named]
      exact ih followed.2.tail found
  | case7 part rest inode file dentries isDirectory allowed plain error failed =>
    rw [ordinaryNames_cons_of_ordinary (not_or.mp plain), search_cons present isDirectory allowed]
    exact answers_of_enter_error failed
  | case8 part rest inode file dentries isDirectory allowed plain entered final step
      ih =>
      obtain ⟨named, found⟩ := enter_ok step
      rw [ordinaryNames_cons_of_ordinary (not_or.mp plain),
        search_cons present isDirectory allowed, named]
      exact ih followed.tail found

theorem foldl_cancel (kept : List Name) (forward : dotDot ∉ parts) :
    parts.foldl cancel kept = kept ++ ordinaryNames parts := by
  induction parts generalizing kept with
  | nil => exact (append_nil kept).symm
  | cons part rest ih =>
    rw [mem_cons, not_or] at forward
    rw [foldl_cons, ih _ forward.2, cancel]
    by_cases single : part = dot
    · rw [if_pos single, ordinaryNames_cons_of_dots (Or.inl single)]
    · have ordinary : Ordinary part := ⟨single, Ne.symm forward.1⟩
      rw [if_neg single, if_neg ordinary.2, ordinaryNames_cons_of_ordinary ordinary,
        append_assoc, singleton_append]

theorem foldl_cancel_of_plain (plain : Plain parts) :
    parts.foldl cancel [] = ordinaryNames parts := by
  cases parts with
  | nil => rfl
  | cons part rest =>
    have forward : dotDot ∉ rest := plain.2
    by_cases double : part = dotDot
    · rw [double, foldl_cons, foldl_cancel _ forward, ordinaryNames_cons_of_dots (Or.inr rfl)]
      rfl
    · exact foldl_cancel [] (not_mem_cons_of_ne_of_not_mem (Ne.symm double) forward)

theorem foldl_cancel_sublist (kept : List Name) :
    (parts.foldl cancel kept).Sublist (kept ++ ordinaryNames parts) := by
  induction parts generalizing kept with
  | nil => simp [ordinaryNames]
  | cons part rest ih =>
    apply (ih _).trans
    by_cases ordinary : Ordinary part
    · rw [cancel, if_neg ordinary.1, if_neg ordinary.2,
        ordinaryNames_cons_of_ordinary ordinary, append_assoc]
      exact .refl _
    · rw [ordinaryNames_cons_of_dots (not_ordinary_iff.mp ordinary)]
      apply Sublist.append_right
      rw [cancel]
      split
      · exact .refl _
      split
      · exact dropLast_sublist _
      next single double => exact absurd ⟨single, double⟩ ordinary

theorem length_foldl_cancel_le (parts kept : List Name) :
    (parts.foldl cancel kept).length ≤ kept.length + (ordinaryNames parts).length := by
  rw [← length_append]
  exact (foldl_cancel_sublist kept).length_le

theorem Followed.adjacent (followed : Followed parts) {front back : List Name} {next : Name}
    (split : parts = front ++ part :: next :: back) :
    Ordinary part ∨ Ordinary next := by
  induction front generalizing parts with
  | nil =>
    subst split
    exact followed.1
  | cons first front ih =>
    subst split
    exact ih followed.tail rfl

theorem length_foldl_cancel_lt (followed : Followed parts) (back : dotDot ∈ parts.tail) :
    (parts.foldl cancel []).length < (ordinaryNames parts).length := by
  obtain ⟨front, later, split⟩ := append_of_mem back
  cases parts with
  | nil => cases back
  | cons first rest =>
    subst split
    -- the part before the two dots
    obtain ⟨earlier, last, before⟩ : ∃ earlier last, first :: front = earlier ++ [last] :=
      ⟨_, _, (dropLast_append_getLast (cons_ne_nil first front)).symm⟩
    have shape : first :: (front ++ dotDot :: later) = earlier ++ last :: dotDot :: later := by
      rw [← cons_append, before, append_assoc, singleton_append]
    have ordinary : Ordinary last :=
      (followed.adjacent shape).resolve_right fun ordinary => ordinary.2 rfl
    have remaining := length_foldl_cancel_le earlier []
    have further := length_foldl_cancel_le later (earlier.foldl cancel [])
    have taken : cancel (cancel (earlier.foldl cancel []) last) dotDot =
        earlier.foldl cancel [] := by
      rw [cancel, if_neg (by decide), if_pos rfl, cancel, if_neg ordinary.1,
        if_neg ordinary.2, dropLast_concat]
    have names : ordinaryNames (earlier ++ last :: dotDot :: later) =
        ordinaryNames earlier ++ last :: ordinaryNames later := by
      rw [ordinaryNames, filter_append]
      congr 1
      exact (ordinaryNames_cons_of_ordinary ordinary).trans
        (congrArg _ (ordinaryNames_cons_of_dots (Or.inr rfl)))
    rw [shape, names, foldl_append, foldl_cons, foldl_cons, taken, length_append, length_cons]
    rw [length_nil] at remaining
    omega

section Ladder

/-- A directory in which all the names stand for the next inode. -/
def rung (names : List Name) (next : Nat) : Table Name Nat :=
  names.foldr (fun name dentries => dentries.insert name next) .empty

theorem get?_rung {next : Nat} :
    (rung names next).get? name = if name ∈ names then some next else none := by
  induction names with
  | nil => exact Table.get?_empty
  | cons first names ih =>
    rw [rung, foldr_cons, Table.get?_insert]
    by_cases same : name = first
    · rw [if_pos same, if_pos (same ▸ mem_cons_self)]
    · rw [if_neg same]
      refine ih.trans ?_
      simp only [mem_cons, same, false_or]

/-- Directories below each other, so that the number of an inode tells how many names
were followed. -/
def ladder (names : List Name) : Nat → Table Nat File
  | 0 => .empty
  | height + 1 =>
    (ladder names height).insert (height + 1)
      ⟨MODE_DIR ||| 0o755, 0, 0, 2, height, 0, .directory (rung names (height + 2))⟩

theorem get?_ladder (found : (ladder names height).get? inode = some file) :
    inode ≤ height ∧ file.data = .directory (rung names (inode + 1)) := by
  induction height with
  | zero => cases found
  | succ height ih =>
    rw [ladder, Table.get?_insert] at found
    split at found
    next top =>
      cases found
      subst top
      exact ⟨le_rfl, rfl⟩
    next below =>
    obtain ⟨bounded, data⟩ := ih found
    exact ⟨Nat.le_succ_of_le bounded, data⟩

theorem ladder_isSome (names : List Name) (positive : 0 < inode)
    (bounded : inode ≤ height) : ∃ file, (ladder names height).get? inode = some file := by
  induction height with
  | zero => omega
  | succ height ih =>
    rw [ladder, Table.get?_insert]
    split
    next top => exact ⟨_, rfl⟩
    next below => exact ih (by omega)

theorem search_ladder {climbed : List Name} {last : Nat} (positive : 0 < inode)
    (known : ∀ name ∈ climbed, name ∈ names) (high : inode + climbed.length ≤ height) :
    search ⟨ladder names height, last⟩ 0 0 climbed inode = .found (inode + climbed.length) := by
  obtain ⟨file, present⟩ := ladder_isSome names positive ((Nat.le_add_right _ _).trans high)
  induction climbed generalizing inode file with
  | nil =>
    rw [search]
    simp only [present]
    rfl
  | cons name climbed ih =>
    rw [length_cons] at high
    have higher : inode + 1 ≤ height := by omega
    obtain ⟨above, further⟩ := ladder_isSome names (Nat.succ_pos inode) higher
    rw [search_cons present (get?_ladder present).2 (by rw [currentPerm_root]; decide),
      get?_rung, if_pos (known name mem_cons_self)]
    have rest := ih (Nat.succ_pos inode)
      (fun other later => known other (mem_cons_of_mem _ later)) (by omega) above further
    rw [length_cons, ← Nat.add_assoc, Nat.add_right_comm]
    exact rest

/-- On the ladder a walk arrives only where every dot is followed by a name, and the
inode tells how many ordinary names there are. -/
theorem walk_ladder {last found : Nat} (noDots : ∀ name ∈ names, Ordinary name)
    (present : (ladder names height).get? inode = some file)
    (walked : walk ⟨ladder names height, last⟩ 0 0 parts inode file = some (.ok found)) :
    Followed parts ∧ found = inode + (ordinaryNames parts).length := by
  generalize equal : (⟨ladder names height, last⟩ : Filesystem) = this at walked
  fun_induction walk this 0 0 parts inode file with
  | case1 =>
    cases walked
    exact ⟨trivial, rfl⟩
  | case2 | case3 | case4 | case5 | case7 => cases walked
  | case6 part inode file dentries isDirectory _ dots next rest entered final step
      ih =>
      subst equal
      obtain ⟨named, arrived⟩ := enter_ok step
      cases (get?_ladder present).2.symm.trans isDirectory
      rw [get?_rung] at named
      split at named
      next listed =>
        cases named
        have ordinary := noDots next listed
        obtain ⟨followed, counted⟩ := ih arrived walked
        rw [ordinaryNames_cons_of_dots dots, ordinaryNames_cons_of_ordinary ordinary, length_cons]
        exact ⟨⟨Or.inr ordinary, followed.cons ordinary⟩, by omega⟩
      next => cases named
  | case8 part rest inode file dentries isDirectory _ plain entered final step
      ih =>
      subst equal
      obtain ⟨named, arrived⟩ := enter_ok step
      cases (get?_ladder present).2.symm.trans isDirectory
      rw [get?_rung] at named
      split at named
      next listed =>
        cases named
        have ordinary : Ordinary part := not_or.mp plain
        obtain ⟨followed, counted⟩ := ih arrived walked
        rw [ordinaryNames_cons_of_ordinary ordinary, length_cons]
        exact ⟨followed.cons ordinary, by omega⟩
      next => cases named

end Ladder

theorem pathComponents_dropWhile :
    pathComponents (path.dropWhile (· = slash)) = pathComponents path := by
  induction path with
  | nil => rfl
  | cons first rest ih =>
    rw [dropWhile_cons]
    split
    next leading =>
      rw [decide_eq_true_eq] at leading
      subst leading
      have leadingEmpty : (slash :: rest).splitOn slash = [] :: rest.splitOn slash :=
        (splitOnP_cons_eq_if_modifyHead slash rest).trans (if_pos (beq_self_eq_true slash))
      rw [ih, pathComponents, pathComponents, leadingEmpty]
      rfl
    next => rfl

theorem resolve_eq_walk {root : File} (present : this.files.get? ROOT_INODE = some root) :
    this.resolve path uid gid = this.walk uid gid (pathComponents path) ROOT_INODE root := by
  rw [resolve, pathComponents_dropWhile, resolveGeneric_eq_walk, present]

def ladderOf (path : Name) : Filesystem :=
  ⟨ladder (ordinaryNames (pathComponents path)) (1 + (pathComponents path).length), 0⟩

/-- On its ladder only a plain path is resolved by its names: the answer tells how many
names were followed. -/
theorem plain_of_resolvesLexically (resolved : ResolvesLexically (ladderOf path) path 0 0) :
    Plain (pathComponents path) := by
  have few : (ordinaryNames (pathComponents path)).length ≤ (pathComponents path).length :=
    length_filter_le _ _
  have fewer : (lexical path).length ≤ (ordinaryNames (pathComponents path)).length := by
    have kept := length_foldl_cancel_le (pathComponents path) []
    rwa [length_nil, Nat.zero_add] at kept
  have meant : search (ladderOf path) 0 0 (lexical path) ROOT_INODE =
      .found (1 + (lexical path).length) := by
    apply search_ladder (Nat.le_refl 1)
    · exact (foldl_cancel_sublist []).subset
    · omega
  obtain ⟨root, present⟩ := ladder_isSome (ordinaryNames (pathComponents path)) (Nat.le_refl 1)
    (Nat.le_add_right 1 (pathComponents path).length)
  rw [ResolvesLexically, meant, resolve_eq_walk present] at resolved
  obtain ⟨followed, counted⟩ := walk_ladder (fun name listed => by
    rw [ordinaryNames, mem_filter, decide_eq_true_eq] at listed
    exact listed.2) present resolved
  refine ⟨followed, fun back => ?_⟩
  have taken : (lexical path).length < (ordinaryNames (pathComponents path)).length :=
    length_foldl_cancel_lt followed back
  omega

/-- A path is resolved by its names in every file system, for every user, exactly when
each of its dots is directly followed by a name and two dots come first if at all. -/
theorem resolves_lexically_iff (path : Name) :
    (∀ this uid gid, ResolvesLexically this path uid gid) ↔ Plain (pathComponents path) := by
  constructor
  · intro resolved
    exact plain_of_resolvesLexically (resolved (ladderOf path) 0 0)
  · intro plain this uid gid
    have names : lexical path = ordinaryNames (pathComponents path) := foldl_cancel_of_plain plain
    rw [ResolvesLexically, names]
    cases present : this.files.get? ROOT_INODE with
    | none =>
      rw [search_absent present, resolve, resolveGeneric_eq_walk, present]
      exact ⟨.ENOENT, nofun, rfl⟩
    | some root =>
      rw [resolve_eq_walk present]
      exact search_answers_walk plain.1 present

/-- A dot at the end of a path has nothing behind it that could be entered. -/
theorem trailing_dot_panics : new.resolve dot 0 0 = none ∧ ¬ ResolvesLexically new dot 0 0 := by
  have panics : new.resolve dot 0 0 = none := by
    apply Option.isNone_iff_eq_none.mp
    decide +kernel
  refine ⟨panics, ?_⟩
  rintro ⟨⟩

end EosBase.Ramfs
