import EosBase.Lib.Bytes

/-!
# Remapping structures of the DMAR table

`DmarRawIter` of `drivers/acpid/src/acpi/dmar/mod.rs`.  Its `next` takes the length of a
record from the bytes of the type.
-/

namespace EosBase.Acpid.Dmar

open List

abbrev Item := Nat × List UInt8

/-- `DmarRawIter::next`, with the bytes that are left; there is no result after a panic. -/
def next (bytes : List UInt8) : Option (Option (Item × List UInt8)) :=
  match slice? bytes 0 2, slice? bytes 2 4 with
  | some typeBytes, some _ =>
    (slice? bytes 4 bytes.length).bind fun remainder =>
      let lenBytes := typeBytes
      let ty := ofLeBytes typeBytes
      let len := ofLeBytes lenBytes
      if remainder.length < len then
        some none
      else if len ≤ bytes.length then
        some (some ((ty, bytes.take len), bytes.drop len))
      else
        none
  | _, _ => some none

inductive Yields : List UInt8 → List Item → Prop where
  | stop {bytes} : next bytes = some none → Yields bytes []
  | item {bytes item rest items} : next bytes = some (some (item, rest)) → Yields rest items →
      Yields bytes (item :: items)

structure Record where
  type : UInt16
  body : List UInt8
  fits : body.length + 4 < 2 ^ 16

def Record.bytes (this : Record) : List UInt8 :=
  leBytes 2 this.type.toNat ++ leBytes 2 (this.body.length + 4) ++ this.body

/-- Records are enumerated as they are, and everything else somehow. -/
def Enumerated (bytes : List UInt8) : Prop :=
  (∀ records : List Record, bytes = records.flatMap Record.bytes →
    Yields bytes (records.map fun record => (record.type.toNat, record.bytes))) ∧
  ((∀ records : List Record, bytes ≠ records.flatMap Record.bytes) →
    ∃ items, Yields bytes items)

def typeOf (bytes : List UInt8) : Nat := ofLeBytes (bytes.take 2)

/-- The rests of a table that are reached by skipping as many bytes as the type says, while
these and four more are left. -/
inductive Leads : List UInt8 → List UInt8 → Prop where
  | refl {bytes} : Leads bytes bytes
  | skip {bytes rest} : 4 + typeOf bytes ≤ bytes.length →
      Leads (bytes.drop (typeOf bytes)) rest → Leads bytes rest

/-- No rest that the types lead to starts with a type of zero and has four bytes. -/
def Moves (bytes : List UInt8) : Prop :=
  ∀ rest, Leads bytes rest → 4 ≤ rest.length → typeOf rest ≠ 0

variable {bytes rest : List UInt8}

theorem next_eq : next bytes = some (if 4 + typeOf bytes ≤ bytes.length then
    some ((typeOf bytes, bytes.take (typeOf bytes)), bytes.drop (typeOf bytes)) else none) := by
  unfold next
  by_cases short : bytes.length < 4
  · rw [slice?_eq_none short, if_neg (by omega)]
    split
    next impossible => cases impossible
    · rfl
  · have first : slice? bytes 0 2 = some (bytes.take 2) := if_pos (by omega)
    have second : slice? bytes 2 4 = some ((bytes.drop 2).take 2) := if_pos (by omega)
    have third : slice? bytes 4 bytes.length = some ((bytes.drop 4).take (bytes.length - 4)) :=
      if_pos (by omega)
    rw [first, second, third]
    simp only [Option.bind_some, length_take, length_drop, Nat.min_self]
    change (if bytes.length - 4 < typeOf bytes then _ else if typeOf bytes ≤ _ then _ else _) = _
    by_cases inside : 4 + typeOf bytes ≤ bytes.length
    · rw [if_neg (by omega), if_pos (by omega), if_pos inside]
      rfl
    · rw [if_pos (by omega), if_neg inside]

theorem yields_cons {items item} (yielded : Yields bytes (item :: items)) :
    4 + typeOf bytes ≤ bytes.length ∧ item = (typeOf bytes, bytes.take (typeOf bytes)) ∧
      Yields (bytes.drop (typeOf bytes)) items := by
  cases yielded with
  | item found rest =>
    rw [next_eq] at found
    split at found
    next inside =>
      cases found
      exact ⟨inside, rfl, rest⟩
    · cases found

/-- Where the type is zero, every call returns the same empty item. -/
theorem not_yields {items} (leads : Leads bytes rest) (header : 4 ≤ rest.length)
    (zero : typeOf rest = 0) : ¬Yields bytes items := by
  intro yielded
  induction yielded with
  | @stop bytes ended =>
    rw [next_eq] at ended
    cases leads with
    | refl => rw [if_pos (by omega)] at ended; cases ended
    | skip inside => rw [if_pos inside] at ended; cases ended
  | @item bytes item left items found _ again =>
    rw [next_eq] at found
    cases leads with
    | refl =>
      rw [if_pos (by omega), zero, drop_zero] at found
      cases found
      exact again .refl
    | skip inside onward =>
      rw [if_pos inside] at found
      cases found
      exact again onward

theorem Moves.yields {bytes} (moves : Moves bytes) : ∃ items, Yields bytes items := by
  by_cases inside : 4 + typeOf bytes ≤ bytes.length
  · have positive : typeOf bytes ≠ 0 := moves bytes .refl (by omega)
    have onward : Moves (bytes.drop (typeOf bytes)) :=
      fun rest leads => moves rest (.skip inside leads)
    obtain ⟨items, yielded⟩ := onward.yields
    exact ⟨_, .item (by rw [next_eq, if_pos inside]) yielded⟩
  · exact ⟨[], .stop (by rw [next_eq, if_neg inside])⟩
termination_by bytes.length
decreasing_by
  rw [length_drop]
  omega

@[simp] theorem Record.length_bytes (record : Record) :
    record.bytes.length = record.body.length + 4 := by
  simp only [Record.bytes, length_append, length_leBytes]
  omega

/-- The check against what follows the header stops iteration at the last record. -/
theorem not_yields_records : ∀ {records : List Record}, records ≠ [] →
    ¬Yields (records.flatMap Record.bytes)
      (records.map fun record => (record.type.toNat, record.bytes))
  | record :: records, _ => fun yielded => by
    rw [flatMap_cons, map_cons] at yielded
    obtain ⟨inside, same, onward⟩ := yields_cons yielded
    obtain ⟨-, same⟩ := Prod.mk.inj same
    have whole : record.bytes.length = typeOf (record.bytes ++ records.flatMap Record.bytes) := by
      have lengths := congrArg length same
      rw [length_take] at lengths
      omega
    rw [← whole, drop_left] at onward
    rw [← whole, length_append] at inside
    cases records with
    | nil => exact absurd inside (by rw [flatMap_nil, length_nil]; omega)
    | cons => exact not_yields_records (cons_ne_nil _ _) onward

theorem enumerated_iff (bytes : List UInt8) : Enumerated bytes ↔ bytes = [] ∨
    (∀ records : List Record, bytes ≠ records.flatMap Record.bytes) ∧ Moves bytes := by
  constructor
  · rintro ⟨exactly, otherwise⟩
    by_cases concatenated : ∃ records : List Record, bytes = records.flatMap Record.bytes
    · obtain ⟨records, rfl⟩ := concatenated
      by_cases empty : records = []
      · exact .inl (by rw [empty, flatMap_nil])
      · exact absurd (exactly records rfl) (not_yields_records empty)
    · have other := not_exists.mp concatenated
      obtain ⟨items, yielded⟩ := otherwise other
      exact .inr ⟨other, fun rest leads header zero => not_yields leads header zero yielded⟩
  · rintro (rfl | ⟨other, moves⟩)
    · refine ⟨fun records same => ?_, fun other => absurd rfl (other [])⟩
      cases records with
      | nil => exact .stop rfl
      | cons record =>
        have lengths := congrArg length same
        rw [flatMap_cons, length_append, Record.length_bytes, length_nil] at lengths
        omega
    · exact ⟨fun records same => absurd same (other records), fun _ => moves.yields⟩

/-- A hardware unit definition has the type zero, and iteration never gets past it. -/
theorem drhd_not_enumerated : ¬Enumerated [0, 0, 4, 0] := fun enumerated =>
  not_yields .refl (by decide) rfl (enumerated.1 [⟨0, [], by decide⟩] rfl)

end EosBase.Acpid.Dmar
