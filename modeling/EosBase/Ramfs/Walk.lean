import EosBase.Ramfs.Filesystem

/-!
# Walking along a path

The loop of `resolve_generic` never looks at the parts that it has passed: a `..` that
steps back only forgets one of them.  What it does depends on the parts ahead alone,
and `walk` says so.
-/

namespace EosBase.Ramfs.Filesystem

open Redox List

/-- Follow the parts from a file on.  The part behind a dot is entered in its place,
whatever it is. -/
def walk (this : Filesystem) (uid gid : Nat) : List Name → Nat → File → Option (Result Nat)
  | [], inode, _ => some (.ok inode)
  | part :: rest, _, file =>
    match file.data with
    | .file _ => some (.error .ENOENT)
    | .directory dentries =>
      if currentPerm file uid gid &&& 0o1 = 0 then
        some (.error .EACCES)
      else if part = dot ∨ part = dotDot then
        match rest with
        | [] => none
        | next :: rest =>
          match this.enter dentries next with
          | .error error => some (.error error)
          | .ok (inode, file) => walk this uid gid rest inode file
      else
        match this.enter dentries part with
        | .error error => some (.error error)
        | .ok (inode, file) => walk this uid gid rest inode file

variable {this : Filesystem} {uid gid : Nat} {passed parts : List Name} {file : File} {inode : Nat}

theorem getElem?_ahead {ahead} : (passed ++ ahead)[passed.length]? = ahead.head? := by
  rw [getElem?_append_right le_rfl, Nat.sub_self, head?_eq_getElem?]

theorem eraseIdx_ahead {part rest} :
    (passed ++ part :: rest).eraseIdx passed.length = passed ++ rest := by
  rw [eraseIdx_append_of_length_le le_rfl, Nat.sub_self, eraseIdx_cons_zero]

theorem resolveLoop_eq_walk {rounds} (passed ahead : List Name) (inode : Nat) (file : File)
    (enough : ahead.length ≤ rounds) :
    this.resolveLoop uid gid rounds (passed ++ ahead) passed.length inode file =
      this.walk uid gid ahead inode file := by
  induction rounds generalizing passed ahead inode file with
  | zero =>
    cases length_eq_zero_iff.mp (Nat.le_zero.mp enough)
    rfl
  | succ rounds ih =>
    have onward : ∀ passed part rest inode file, rest.length ≤ rounds →
        this.resolveLoop uid gid rounds (passed ++ part :: rest) (passed.length + 1) inode file =
          this.walk uid gid rest inode file := by
      intro passed part rest inode file enough
      have next := ih (passed ++ [part]) rest inode file enough
      rwa [append_assoc, length_append] at next
    cases ahead with
    | nil =>
      rw [resolveLoop, getElem?_ahead]
      rfl
    | cons part rest =>
      rw [length_cons, Nat.add_le_add_iff_right] at enough
      rw [resolveLoop, getElem?_ahead, walk.eq_def]
      simp only [head?_cons]
      cases file.data with
      | file bytes => rfl
      | directory dentries =>
        dsimp only
        by_cases denied : currentPerm file uid gid &&& 0o1 = 0
        · rw [if_pos denied, if_pos denied]
        rw [if_neg denied, if_neg denied]
        by_cases dots : part = dot ∨ part = dotDot
        · rw [if_pos dots, if_pos dots, eraseIdx_ahead, getElem?_ahead]
          cases rest with
          | nil => rfl
          | cons next rest =>
            rw [length_cons] at enough
            simp only [head?_cons]
            by_cases back : next = dotDot ∧ 0 < passed.length
            · -- the part before is forgotten, and `..` itself is entered
              rcases eq_nil_or_concat passed with rfl | ⟨front, last, rfl⟩
              · cases back.2
              have shorter : (front.concat last).length - 1 = front.length := by
                rw [length_concat, Nat.add_sub_cancel]
              rw [if_pos back, if_pos back, shorter, concat_eq_append,
                append_assoc, singleton_append, eraseIdx_ahead,
                getElem?_ahead]
              simp only [head?_cons]
              cases this.enter dentries next with
              | error error => rfl
              | ok entered => exact onward front next rest _ _ (by omega)
            · rw [if_neg back, if_neg back, getElem?_ahead]
              simp only [head?_cons]
              cases this.enter dentries next with
              | error error => rfl
              | ok entered => exact onward passed next rest _ _ (by omega)
        · have back : ¬ (part = dotDot ∧ 0 < passed.length) :=
            fun back => dots (Or.inr back.1)
          rw [if_neg dots, if_neg dots, getElem?_ahead]
          simp only [head?_cons]
          rw [if_neg back, if_neg back, getElem?_ahead]
          simp only [head?_cons]
          cases this.enter dentries part with
          | error error => rfl
          | ok entered => exact onward passed part rest _ _ enough

theorem resolveGeneric_eq_walk : this.resolveGeneric parts uid gid =
      match this.files.get? ROOT_INODE with
      | none => some (.error .ENOENT)
      | some root => this.walk uid gid parts ROOT_INODE root := by
  rw [resolveGeneric]
  cases this.files.get? ROOT_INODE with
  | none => rfl
  | some root => exact resolveLoop_eq_walk [] parts ROOT_INODE root le_rfl

theorem enter_ok {dentries part} (entered : this.enter dentries part = .ok (inode, file)) :
    dentries.get? part = some inode ∧ this.files.get? inode = some file := by
  obtain ⟨_, named, entered⟩ := ok_of_bind entered
  obtain ⟨_, found, entered⟩ := ok_of_bind entered
  cases entered
  exact ⟨okOr_ok named, okOr_ok found⟩

@[simp]
theorem currentPerm_root : currentPerm file 0 gid = 0o7 := rfl

theorem walk_ok {found} (walked : this.walk uid gid parts inode file = some (.ok found))
    (present : this.files.get? inode = some file) : ∃ final, this.files.get? found = some final ∧
      ∀ more, this.walk 0 0 (parts ++ more) inode file = this.walk 0 0 more found final := by
  fun_induction walk this uid gid parts inode file with
  | case1 inode file =>
    cases walked
    exact ⟨file, present, fun _ => rfl⟩
  | case2 => cases walked
  | case3 => cases walked
  | case4 => cases walked
  | case5 => cases walked
  | case7 => cases walked
  | case6 part _ file dentries isDirectory _ dots next rest inode entered step
      ih =>
      obtain ⟨final, arrived, continued⟩ := ih walked (enter_ok step).2
      refine ⟨final, arrived, fun more => ?_⟩
      rw [cons_append, cons_append, walk.eq_def]
      simp only [isDirectory, currentPerm_root, dots, step, if_true, continued]
      rfl
  | case8 part rest _ file dentries isDirectory _ plain inode entered step
      ih =>
      obtain ⟨final, arrived, continued⟩ := ih walked (enter_ok step).2
      refine ⟨final, arrived, fun more => ?_⟩
      rw [cons_append, walk.eq_def]
      simp only [isDirectory, currentPerm_root, plain, step, if_false, continued]
      rfl

end EosBase.Ramfs.Filesystem
