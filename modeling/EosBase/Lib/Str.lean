import Mathlib.Algebra.Order.Ring.Nat
import Mathlib.Data.List.DropRight

/-!
# Strings that are sliced by bytes

A Rust `str` is a list of characters, but a position in it counts bytes.  A slice
that starts or ends inside of a character panics, which is the absence of a result
here.
-/

namespace EosBase.Str

open List Nat

def byteLen (text : List Char) : Nat := (text.map Char.utf8Size).sum

def splitAtByte : List Char → Nat → Option (List Char × List Char)
  | text, 0 => some ([], text)
  | [], _ + 1 => none
  | first :: text, position + 1 =>
    if first.utf8Size ≤ position + 1 then
      (splitAtByte text (position + 1 - first.utf8Size)).map fun halves =>
        (first :: halves.1, halves.2)
    else
      none

def IsCharBoundary (text : List Char) (position : Nat) : Prop :=
  (splitAtByte text position).isSome

instance (text : List Char) (position : Nat) : Decidable (IsCharBoundary text position) :=
  inferInstanceAs (Decidable (_ = true))

def trimMatches (pattern : Char) (text : List Char) : List Char :=
  (text.dropWhile (· == pattern)).rdropWhile (· == pattern)

def readDigit (value : Nat) (digit : Char) : Option Nat :=
  if digit.isDigit then
    let longer := 10 * value + (digit.toNat - '0'.toNat)
    if longer < 2 ^ 32 then some longer else none
  else
    none

def parseU32 : List Char → Option UInt32
  | [] => none
  | ['+'] => none
  | '+' :: digits => (digits.foldlM readDigit 0).map UInt32.ofNat
  | digits => (digits.foldlM readDigit 0).map UInt32.ofNat

/-- A number as `{}` writes it. -/
def decimal (number : UInt32) : List Char := toDigits 10 number.toNat

variable {number : UInt32} {c : Char}

theorem isDigit_of_mem_decimal (written : c ∈ decimal number) : c.isDigit :=
  isDigit_of_mem_toDigits (by decide) (by decide) written

theorem not_mem_decimal (other : c.isDigit = false) : c ∉ decimal number := by
  intro written
  rw [isDigit_of_mem_decimal written] at other
  cases other

theorem findIdx?_decimal (other : c.isDigit = false) :
    (decimal number).findIdx? (· == c) = none := by
  rw [findIdx?_eq_none_iff]
  intro digit written
  rw [beq_eq_false_iff_ne]
  rintro rfl
  exact not_mem_decimal other written

theorem foldlM_readDigit {digits value} (written : ∀ c ∈ digits, c.isDigit)
    (fits : ofDigitChars 10 digits value < 2 ^ 32) :
    digits.foldlM readDigit value = some (ofDigitChars 10 digits value) := by
  induction digits generalizing value with
  | nil => simp
  | cons digit digits ih =>
    have longer : 10 * value + (digit.toNat - '0'.toNat) < 2 ^ 32 := by
      apply lt_of_le_of_lt _ fits
      rw [ofDigitChars_cons, ofDigitChars_eq_ofDigitChars_zero]
      apply Nat.le_trans _ (Nat.le_add_right _ _)
      exact Nat.le_mul_of_pos_left _ (Nat.pow_pos (by decide))
    rw [foldlM_cons, readDigit, if_pos (written digit mem_cons_self), if_pos longer]
    exact ih (fun c rest => written c (mem_cons_of_mem _ rest)) fits

@[simp]
theorem parseU32_decimal : parseU32 (decimal number) = some number := by
  have value : ofDigitChars 10 (decimal number) 0 = number.toNat :=
    ofDigitChars_ten_toDigits
  have digits : (decimal number).foldlM readDigit 0 = some number.toNat := by
    rw [foldlM_readDigit (fun c => isDigit_of_mem_decimal), value]
    rw [value]
    exact number.toNat_lt
  have plus : '+' ∉ decimal number := not_mem_decimal (by decide)
  rw [parseU32.eq_def]
  split
  next empty => exact absurd empty toDigits_ne_nil
  next alone =>
    rw [alone] at plus
    exact absurd mem_cons_self plus
  next signed =>
    rw [signed] at plus
    exact absurd mem_cons_self plus
  next => rw [digits, Option.map_some, UInt32.ofNat_toNat]

theorem trimMatches_of_not_mem {pattern text} (absent : pattern ∉ text) :
    trimMatches pattern text = text := by
  have kept : text.dropWhile (· == pattern) = text := by
    cases text with
    | nil => rfl
    | cons first rest =>
      apply dropWhile_cons_of_neg
      rw [beq_iff_eq]
      rintro rfl
      exact absent mem_cons_self
  rw [trimMatches, kept]
  apply rdropWhile_eq_self_iff.mpr
  intro nonempty last
  rw [beq_iff_eq] at last
  exact absent (last ▸ getLast_mem nonempty)

theorem length_le_byteLen (text : List Char) : text.length ≤ byteLen text := by
  induction text with
  | nil => exact le_rfl
  | cons first rest ih =>
    have size := first.utf8Size_pos
    simp only [byteLen, length_cons, map_cons, sum_cons] at ih ⊢
    omega

/-- Characters of one byte each can be counted instead. -/
theorem splitAtByte_append (front back : List Char) (narrow : ∀ c ∈ front, c.utf8Size = 1) :
    splitAtByte (front ++ back) front.length = some (front, back) := by
  induction front with
  | nil => cases back <;> rfl
  | cons first front ih =>
    have size := narrow first mem_cons_self
    have rest := ih fun c later => narrow c (mem_cons_of_mem _ later)
    rw [cons_append, length_cons, splitAtByte, size, if_pos (Nat.le_add_left _ _),
      Nat.add_sub_cancel, rest]
    rfl

theorem utf8Size_of_isDigit (digit : c.isDigit) : c.utf8Size = 1 := by
  rw [Char.utf8Size_eq_one_iff]
  simp only [Char.isDigit, Bool.and_eq_true, decide_eq_true_eq] at digit
  exact UInt32.le_trans digit.2 (by decide)

end EosBase.Str
