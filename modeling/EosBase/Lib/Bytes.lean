import Mathlib.Data.List.GetD
import Mathlib.Algebra.Order.Ring.Nat

/-!
# Bytes

Little-endian words, checked slices of byte strings, texts in UTF-8, and a file
that is written piece by piece and reads as zero where nothing was written.
-/

namespace EosBase

open List Nat

/-- The lowest `width` bytes of a number, the least significant first. -/
def leBytes : Nat → Nat → List UInt8
  | 0, _ => []
  | width + 1, value => UInt8.ofNat value :: leBytes width (value / 256)

def ofLeBytes : List UInt8 → Nat
  | [] => 0
  | byte :: bytes => byte.toNat + 256 * ofLeBytes bytes

variable {width value count : Nat}

@[simp]
theorem length_leBytes : (leBytes width value).length = width := by
  induction width generalizing value with
  | zero => rfl
  | succ width ih => simp [leBytes, ih]

@[simp]
theorem take_leBytes (enough : width ≤ count) :
    (leBytes width value).take count = leBytes width value :=
  take_of_length_le (by simpa using enough)

@[simp]
theorem drop_leBytes (enough : width ≤ count) : (leBytes width value).drop count = [] :=
  drop_of_length_le (by simpa using enough)

theorem ofLeBytes_leBytes (fits : value < 256 ^ width) :
    ofLeBytes (leBytes width value) = value := by
  induction width generalizing value with
  | zero =>
    have zero : value = 0 := by simpa using fits
    rw [zero]
    rfl
  | succ width ih =>
    have quotient : value / 256 < 256 ^ width := by
      exact Nat.div_lt_of_lt_mul (by omega)
    simp only [leBytes, ofLeBytes, ih quotient, UInt8.toNat_ofNat']
    omega

theorem ofLeBytes_lt (bytes : List UInt8) : ofLeBytes bytes < 256 ^ bytes.length := by
  induction bytes with
  | nil => decide
  | cons byte bytes ih =>
    have bound := byte.toNat_lt
    simp only [ofLeBytes, length_cons, pow_succ]
    omega

theorem leBytes_ofLeBytes (bytes : List UInt8) :
    leBytes bytes.length (ofLeBytes bytes) = bytes := by
  induction bytes with
  | nil => rfl
  | cons byte bytes ih =>
    have bound := byte.toNat_lt
    have low : UInt8.ofNat (byte.toNat + 256 * ofLeBytes bytes) = byte := by
      apply UInt8.toNat_inj.mp
      rw [UInt8.toNat_ofNat']
      omega
    have high : (byte.toNat + 256 * ofLeBytes bytes) / 256 = ofLeBytes bytes := by omega
    rw [ofLeBytes, length_cons, leBytes, low, high, ih]

/-- `slice.get(start..stop)`. -/
def slice? (bytes : List UInt8) (start stop : Nat) : Option (List UInt8) :=
  if start ≤ stop ∧ stop ≤ bytes.length then some ((bytes.drop start).take (stop - start))
  else none

variable {bytes : List UInt8} {start : Nat} {stop : Nat}

theorem slice?_eq_none (outside : bytes.length < stop) : slice? bytes start stop = none :=
  if_neg (by omega)

theorem length_of_slice? {piece} (found : slice? bytes start stop = some piece) :
    piece.length = stop - start ∧ start ≤ stop ∧ stop ≤ bytes.length := by
  unfold slice? at found
  split at found
  next inside =>
    cases found
    rw [length_take, length_drop]
    omega
  · cases found

theorem slice?_isSome (ordered : start ≤ stop) (inside : stop ≤ bytes.length) :
    ∃ piece, slice? bytes start stop = some piece :=
  ⟨_, if_pos ⟨ordered, inside⟩⟩

theorem slice?_append {front piece back : List UInt8} (cut : bytes = front ++ (piece ++ back))
    (starts : front.length = start) (stops : start + piece.length = stop) :
    slice? bytes start stop = some piece := by
  subst cut starts stops
  rw [slice?, if_pos (by simp), drop_left, Nat.add_sub_cancel_left, take_left]

/-- Every byte of an encoded character after its first continues it. -/
theorem continues_of_mem_tail {c byte}
    (mem : byte ∈ (String.utf8EncodeChar c).tail) : byte &&& 0xc0 = 0x80 := by
  have continues : ∀ low < 64, UInt8.ofNat (low + 0x80) &&& 0xc0 = 0x80 := by decide
  unfold String.utf8EncodeChar at mem
  grind

abbrev Utf8 (text : List UInt8) : Prop :=
  ByteArray.IsValidUTF8 ⟨text.toArray⟩

theorem utf8_iff {text} : Utf8 text ↔ ∃ chars :
    List Char, text = chars.flatMap String.utf8EncodeChar := by
  constructor
  · rintro ⟨chars, eq⟩
    have same := congrArg (·.data.toList) eq
    exact ⟨chars, by simpa [List.utf8Encode] using same⟩
  · rintro ⟨chars, rfl⟩
    exact ⟨chars, ByteArray.ext (by simp [List.utf8Encode])⟩

/-- A byte that continues no character is a place to cut the text. -/
theorem Utf8.take {text} (valid : Utf8 text) {cut}
    (starts : ∀ byte, text[cut]? = some byte → byte &&& 0xc0 ≠ 0x80) : Utf8 (text.take cut) := by
  rw [utf8_iff] at valid ⊢
  obtain ⟨chars, rfl⟩ := valid
  induction chars generalizing cut with
  | nil => exact ⟨[], by simp⟩
  | cons c rest ih =>
    rw [flatMap_cons] at starts ⊢
    by_cases inside : cut < (String.utf8EncodeChar c).length
    · cases cut with
      | zero => exact ⟨[], rfl⟩
      | succ cut =>
        have found := getElem?_eq_getElem inside
        have continues := continues_of_mem_tail (mem_of_getElem? (getElem?_tail.trans found))
        rw [getElem?_append_left inside] at starts
        exact absurd continues (starts _ found)
    · rw [getElem?_append_right (by omega)] at starts
      obtain ⟨kept, eq⟩ := ih starts
      refine ⟨c :: kept, ?_⟩
      rw [take_append, take_of_length_le (by omega), eq, flatMap_cons]

/-- The bytes of a file, zero behind its end. -/
structure Blob where
  byte : Nat → UInt8
  size : Nat

namespace Blob

def empty : Blob := ⟨fun _ => 0, 0⟩

def writeAllAt (blob : Blob) (buffer : List UInt8) (offset : Nat) : Blob where
  byte position :=
    if offset ≤ position ∧ position < offset + buffer.length then
      buffer.getD (position - offset) 0
    else
      blob.byte position
  size := if buffer = [] then blob.size else max blob.size (offset + buffer.length)

def read (blob : Blob) (offset length : Nat) : List UInt8 :=
  (range length).map fun index => blob.byte (offset + index)

def toList (blob : Blob) : List UInt8 :=
  blob.read 0 blob.size

variable {length offset : Nat} {buffer : List UInt8}

@[simp] theorem length_read {blob : Blob} : (blob.read offset length).length = length := by
  simp [read]

@[simp]
theorem length_toList {blob : Blob} : blob.toList.length = blob.size :=
  length_read

def Agree (first second : Blob) (low high : Nat) : Prop :=
  ∀ position, low ≤ position → position < high → second.byte position = first.byte position

namespace Agree

variable {first second third : Blob} {low high : Nat}

theorem refl (blob : Blob) (low high : Nat) : blob.Agree blob low high :=
  fun _ _ _ => rfl

theorem trans (earlier : first.Agree second low high) (later : second.Agree third low high) :
    first.Agree third low high :=
  fun position above below =>
    (later position above below).trans (earlier position above below)

theorem mono {lower higher} (agree : first.Agree second lower higher) (above : lower ≤ low)
    (below : high ≤ higher) : first.Agree second low high :=
  fun position lowest highest =>
    agree position (above.trans lowest) (highest.trans_le below)

theorem read (agree : first.Agree second low high) (above : low ≤ offset)
    (below : offset + length ≤ high) : second.read offset length = first.read offset length := by
  apply map_congr_left
  intro index member
  have small := mem_range.mp member
  exact agree _ (by omega) (by omega)

end Agree

section

variable (blob : Blob)

include blob

/-- A write leaves everything outside its range alone. -/
theorem agree_writeAllAt {low high} (apart : high ≤ offset ∨ offset + buffer.length ≤ low) :
    blob.Agree (blob.writeAllAt buffer offset) low high := by
  intro position above below
  exact if_neg (by omega)

theorem writeAllAt_nil (offset : Nat) : blob.writeAllAt [] offset = blob := by
  simp [writeAllAt, show ∀ position, ¬ (offset ≤ position ∧ position < offset) by omega]

theorem head?_read (positive : 0 < length) :
    (blob.read offset length).head? = some (blob.byte offset) := by
  obtain ⟨rest, rfl⟩ := exists_eq_succ_of_ne_zero positive.ne'
  simp [read, range_succ_eq_map]

/-- What was written is read back. -/
theorem read_writeAllAt (buffer : List UInt8) (offset : Nat) :
    (blob.writeAllAt buffer offset).read offset buffer.length = buffer := by
  apply ext_getElem (by simp)
  intro index small _
  rw [length_read] at small
  simp only [read, getElem_map, getElem_range, writeAllAt]
  rw [if_pos (by omega), Nat.add_sub_cancel_left, getD_eq_getElem _ _ small]

/-- A write may be made in two pieces. -/
theorem writeAllAt_take_drop (buffer : List UInt8) (count offset : Nat) :
    (blob.writeAllAt (buffer.take count) offset).writeAllAt (buffer.drop count) (offset + count) =
      blob.writeAllAt buffer offset := by
  by_cases whole : buffer.length ≤ count
  · rw [take_of_length_le whole, drop_of_length_le whole, writeAllAt_nil]
  have more : buffer.drop count ≠ [] := by simpa using whole
  have some : buffer ≠ [] := ne_of_apply_ne (drop count) (by simpa using whole)
  unfold writeAllAt
  simp only [length_drop, length_take, if_neg some, if_neg more, Blob.mk.injEq]
  constructor
  · funext position
    simp only [getD_eq_getElem?_getD, getElem?_drop, getElem?_take]
    split
    next behind =>
      rw [if_pos (by omega),
        show count + (position - (offset + count)) = position - offset by omega]
    · grind
  · split <;> omega

theorem take_drop_read (inside : start + count ≤ length) :
    ((blob.read offset length).drop start).take count = blob.read (offset + start) count := by
  apply ext_getElem
  · simp only [length_take, length_drop, length_read]
    omega
  · simp [read, add_assoc]

theorem size_le_writeAllAt (buffer : List UInt8) (offset : Nat) :
    blob.size ≤ (blob.writeAllAt buffer offset).size := by
  unfold writeAllAt
  split
  · exact le_rfl
  · exact le_max_left _ _

theorem end_le_writeAllAt (nonempty : buffer ≠ []) :
    offset + buffer.length ≤ (blob.writeAllAt buffer offset).size := by
  unfold writeAllAt
  rw [if_neg nonempty]
  exact le_max_right _ _

end

variable {blob : Blob}

/-- A file that ends before a bound still does after a write below it. -/
theorem writeAllAt_size_le {bound} (before : blob.size ≤ bound)
    (below : offset + buffer.length ≤ bound) : (blob.writeAllAt buffer offset).size ≤ bound := by
  unfold writeAllAt
  split
  · exact before
  · exact Nat.max_le.mpr ⟨before, below⟩

/-- A slice of the whole file. -/
theorem slice?_toList (ordered : start ≤ stop) (inside : stop ≤ blob.size) :
    slice? blob.toList start stop = some (blob.read start (stop - start)) := by
  rw [slice?, if_pos ⟨ordered, by simpa using inside⟩, toList, take_drop_read _ (by omega),
    zero_add]

end Blob

end EosBase
