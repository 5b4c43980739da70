import EosBase.Lib.Loop
import Mathlib.Data.List.Basic
import Mathlib.Data.List.Nodup

/-!
# Split virtqueues

A request is a chain of descriptors, one for each of its buffers.  The driver takes
descriptors from its free stack, links them in the descriptor table, and puts the first one
into the available ring; the device puts it into the used ring when it is done with the
request.  The future of the request then returns the chain to the free stack.

The indices of the two rings are 16-bit numbers that count on and on.  The driver adds to
one and subtracts from the other with the plain operators, which panic at an overflow in a
build with overflow checks and wrap around in one without.  Which tasks are woken is not
part of the model.
-/

namespace EosBase.Virtio

open List Option Nat

def addU16 (overflowChecks : Bool) (first second : Nat) : Option Nat :=
  if first + second < 2 ^ 16 then some (first + second)
  else if overflowChecks then none
  else some (first + second - 2 ^ 16)

def subU16 (overflowChecks : Bool) (first second : Nat) : Option Nat :=
  if second ≤ first then some (first - second)
  else if overflowChecks then none
  else some (first + 2 ^ 16 - second)

variable {overflowChecks : Bool} {number : Nat}

theorem addU16_one (small : number < 2 ^ 16) : addU16 overflowChecks number 1 =
      if overflowChecks = true ∧ number = 2 ^ 16 - 1 then none
      else some ((number + 1) % 2 ^ 16) := by
  rw [addU16]
  by_cases last : number = 2 ^ 16 - 1
  · subst last
    cases overflowChecks <;> rfl
  · have fits : number + 1 < 2 ^ 16 := by omega
    rw [if_pos fits, if_neg (fun both => last both.2), mod_eq_of_lt fits]

theorem subU16_one (small : number < 2 ^ 16) : subU16 overflowChecks number 1 =
      if overflowChecks = true ∧ number = 0 then none
      else some ((number + 2 ^ 16 - 1) % 2 ^ 16) := by
  rw [subU16]
  by_cases zero : number = 0
  · subst zero
    cases overflowChecks <;> rfl
  · have less : (number + 2 ^ 16 - 1) % 2 ^ 16 = number - 1 := by omega
    rw [if_pos (by omega), if_neg (fun both => zero both.2), less]

structure DescriptorFlags where
  next : Bool
  writeOnly : Bool
  indirect : Bool
  deriving DecidableEq

structure Buffer where
  buffer : Nat
  size : Nat
  flags : DescriptorFlags
  deriving DecidableEq

def Buffer.withNext (this : Buffer) (next : Bool) : Buffer :=
  { this with flags := { this.flags with next } }

namespace ChainBuilder

def chain (buffers : List Buffer) (buffer : Buffer) : List Buffer :=
  buffers ++ [buffer.withNext true]

/-- `ChainBuilder::build`.  There is no result for an empty chain. -/
def build (buffers : List Buffer) : Option (List Buffer) :=
  buffers.getLast?.map fun last => buffers.dropLast ++ [last.withNext false]

def ofBuffers (buffers : List Buffer) : Option (List Buffer) :=
  build (buffers.foldl chain [])

end ChainBuilder

structure Descriptor where
  address : Nat
  size : Nat
  flags : DescriptorFlags
  next : Nat
  deriving DecidableEq

namespace Descriptor

/-- `set_addr`, `set_flags` and `set_size` for a buffer, whose size is cut to 32 bits. -/
def describe (this : Descriptor) (buffer : Buffer) : Descriptor :=
  { this with address := buffer.buffer, flags := buffer.flags, size := buffer.size % 2 ^ 32 }

def setNext (this : Descriptor) (next : Option Nat) : Descriptor :=
  { this with next := next.getD 0 }

end Descriptor

inductive Poll where
  | pending
  | ready (written : Nat)
  deriving DecidableEq

structure UsedRingElement where
  tableIndex : Nat
  written : Nat
  deriving DecidableEq

structure Queue where
  descriptor : List Descriptor
  /-- The head index and the elements of the available ring. -/
  availableHead : Nat
  availableElements : List Nat
  /-- The head index and the elements of the used ring, which the device writes. -/
  usedIndex : Nat
  usedElements : List UsedRingElement
  usedHead : Nat
  descriptorStack : List Nat

namespace Queue

/-- What `Used::from_raw` leaves in an element of zeroed memory: it takes its index modulo 256. -/
def usedBlank (index : Nat) : UsedRingElement := ⟨if index < 256 then 2 ^ 32 - 1 else 0, 0⟩

/-- `Queue::new` with zeroed memory and new rings. -/
def new (queueSize : Nat) : Queue where
  descriptor := replicate queueSize ⟨0, 0, ⟨false, false, false⟩, 0⟩
  availableHead := 0
  availableElements := replicate queueSize (2 ^ 16 - 1)
  usedIndex := 0
  usedElements := (range queueSize).map usedBlank
  usedHead := 0
  descriptorStack := range queueSize

def linkLast (table : List Descriptor) : Option Nat → Nat → List Descriptor
  | none, _ => table
  | some last, descriptor => table.modify last fun entry => entry.setNext (some descriptor)

/-- The loop of `Queue::send`: the first and the last descriptor, the table and the free
stack.  There is no result when the stack runs out. -/
def sendLoop : List Buffer → Option Nat → Option Nat → List Descriptor → List Nat →
    Option (Option Nat × Option Nat × List Descriptor × List Nat)
  | [], first, last, table, stack => some (first, last, table, stack)
  | _ :: _, _, _, _, [] => none
  | buffer :: buffers, first, last, table, descriptor :: stack =>
    if descriptor < table.length then
      sendLoop buffers (first.or (some descriptor)) (some descriptor)
        (linkLast (table.modify descriptor fun entry => entry.describe buffer) last descriptor)
        stack
    else
      none

/-- `Queue::send`: the queue and the first descriptor, which the future keeps. -/
def send (overflowChecks : Bool) (this : Queue) (chain : List Buffer) : Option (Queue × Nat) :=
  match sendLoop chain none none this.descriptor this.descriptorStack with
  | some (some first, some last, table, stack) =>
    (addU16 overflowChecks this.availableHead 1).map fun head =>
      ({ this with
        descriptor := table.modify last fun entry => entry.setNext none
        descriptorStack := stack
        availableElements := this.availableElements.set
          (this.availableHead % this.availableElements.length) first
        availableHead := head }, first)
  | _ => none

/-- One round of the loop that recycles a chain, at a descriptor and with a free stack. -/
def recycleRound (table : List Descriptor) (state : Nat × List Nat) :
    Turn (Nat × List Nat) (Option (List Nat)) :=
  match table[state.1]? with
  | none => .done none
  | some entry =>
    if entry.flags.next then .again (entry.next, state.2 ++ [state.1])
    else .done (some (state.2 ++ [state.1]))

/-- The free stack with the chain of a descriptor.  A chain without end, which is longer
than the table, is never recycled. -/
def recycle (this : Queue) (first : Nat) : Option (List Nat) :=
  (loop (recycleRound this.descriptor) this.descriptor.length (first, this.descriptorStack)).join

/-- `PendingRequest::poll` of the request with the given first descriptor. -/
def poll (overflowChecks : Bool) (this : Queue) (firstDescriptor : Nat) : Option (Queue × Poll) :=
  if this.usedIndex = this.usedHead then
    some (this, .pending)
  else
    match subU16 overflowChecks this.usedIndex 1 with
    | none => none
    | some last =>
      match this.usedElements[last % this.usedElements.length]? with
      | none => none
      | some element =>
        if element.tableIndex = firstDescriptor then
          (this.recycle firstDescriptor).map fun stack =>
            ({ this with descriptorStack := stack, usedHead := this.usedIndex },
              .ready element.written)
        else
          some (this, .pending)

end Queue

def Chained : List Buffer → Prop
  | [] => True
  | buffer :: buffers => buffer.flags.next = !buffers.isEmpty ∧ Chained buffers

/-- The descriptors of the table describe the buffers and lead from one to the next. -/
def Linked (table : List Descriptor) : List Nat → List Buffer → Prop
  | [], [] => True
  | descriptor :: descriptors, buffer :: buffers =>
    table[descriptor]? =
        some ⟨buffer.buffer, buffer.size, buffer.flags, descriptors.head?.getD 0⟩ ∧
      buffer.flags.next = !descriptors.isEmpty ∧ Linked table descriptors buffers
  | _, _ => False

def Buffer.cut (this : Buffer) : Buffer :=
  { this with size := this.size % 2 ^ 32 }

variable {buffer : Buffer} {front buffers chain : List Buffer} {descriptors : List Nat}
  {table : List Descriptor} {entry : Descriptor} {other index : Nat}

theorem Buffer.cut_eq_self_iff : buffer.cut = buffer ↔ buffer.size < 2 ^ 32 := by
  constructor
  · intro same
    rw [← same]
    exact mod_lt _ (by decide)
  · intro small
    rw [cut, mod_eq_of_lt small]

theorem foldl_chain :
    buffers.foldl ChainBuilder.chain front = front ++ buffers.map (·.withNext true) := by
  induction buffers generalizing front with
  | nil => rw [foldl_nil, map_nil, append_nil]
  | cons buffer buffers ih =>
    rw [foldl_cons, ih, ChainBuilder.chain, append_assoc]
    rfl

theorem chained_concat {last : Buffer} (continued : ∀ buffer ∈ front, buffer.flags.next = true) :
    Chained (front ++ [last.withNext false]) := by
  induction front with
  | nil => exact ⟨rfl, trivial⟩
  | cons buffer front ih =>
    refine ⟨?_, ih fun other member =>
      continued other (mem_cons_of_mem _ member)⟩
    rw [continued buffer mem_cons_self]
    cases front <;> rfl

/-- `ChainBuilder` builds a chain of as many buffers, which is not empty. -/
theorem ofBuffers_chained (built : ChainBuilder.ofBuffers buffers = some chain) :
    Chained chain ∧ chain ≠ [] ∧ chain.length = buffers.length := by
  rw [ChainBuilder.ofBuffers, foldl_chain, nil_append, ChainBuilder.build] at built
  obtain ⟨last, found, rfl⟩ := map_eq_some_iff.mp built
  have nonempty : buffers.map (·.withNext true) ≠ [] := by
    intro empty
    rw [empty] at found
    cases found
  refine ⟨?_, concat_ne_nil _ _, ?_⟩
  · apply chained_concat
    intro buffer member
    obtain ⟨original, _, rfl⟩ := mem_map.mp ((dropLast_sublist _).subset member)
    rfl
  · have positive := length_pos_iff.mpr nonempty
    rw [length_map] at positive
    rw [length_append, length_dropLast, length_map, length_singleton]
    omega

theorem ofBuffers_isSome (nonempty : buffers ≠ []) :
    ∃ chain, ChainBuilder.ofBuffers buffers = some chain := by
  rw [ChainBuilder.ofBuffers, foldl_chain, nil_append, ChainBuilder.build]
  have mapped : buffers.map (·.withNext true) ≠ [] := mt map_eq_nil_iff.mp nonempty
  rw [getLast?_eq_some_getLast mapped]
  exact ⟨_, rfl⟩

theorem Linked.congr {other} (linked : Linked table descriptors buffers)
    (kept : ∀ descriptor ∈ descriptors, other[descriptor]? = table[descriptor]?) :
    Linked other descriptors buffers := by
  induction descriptors generalizing buffers with
  | nil =>
    cases buffers with
    | nil => trivial
    | cons buffer buffers => exact linked.elim
  | cons descriptor descriptors ih =>
    cases buffers with
    | nil => exact linked.elim
    | cons buffer buffers =>
      refine ⟨?_, linked.2.1, ih linked.2.2 fun index member =>
        kept index (mem_cons_of_mem _ member)⟩
      rw [kept descriptor mem_cons_self]
      exact linked.1

theorem linked_cut_iff (linked : Linked table descriptors (buffers.map Buffer.cut)) :
    Linked table descriptors buffers ↔ ∀ buffer ∈ buffers, buffer.size < 2 ^ 32 := by
  induction descriptors generalizing buffers with
  | nil =>
    cases buffers with
    | nil => exact iff_of_true trivial nofun
    | cons buffer buffers => exact linked.elim
  | cons descriptor descriptors ih =>
    cases buffers with
    | nil => exact linked.elim
    | cons buffer buffers =>
      obtain ⟨written, flag, rest⟩ := linked
      simp only [mem_cons, forall_eq_or_imp]
      refine and_congr ?_ (Iff.trans ⟨And.right, fun later => ⟨flag, later⟩⟩ (ih rest))
      rw [written, ← Buffer.cut_eq_self_iff]
      constructor
      · intro same
        have sizes := congrArg Descriptor.size (some_inj.mp same)
        simp only [Buffer.cut] at sizes ⊢
        rw [sizes]
      · intro same
        rw [same]

theorem isEmpty_congr {First Second : Type} {first : List First} {second : List Second}
    (same : first.length = second.length) : first.isEmpty = second.isEmpty := by
  rw [Bool.eq_iff_iff, isEmpty_iff_length_eq_zero, isEmpty_iff_length_eq_zero, same]

section Modify

theorem modify_self {change} (found : table[index]? = some entry) :
    (table.modify index change)[index]? = some (change entry) := by
  rw [getElem?_modify, found]
  simp only [if_true, Option.map_eq_map, Option.map_some]

theorem modify_of_ne {change} (different : other ≠ index) :
    (table.modify index change)[other]? = table[other]? := by
  rw [getElem?_modify]
  simp only [if_neg different.symm, Option.map_eq_map, Option.map_id']

end Modify

/-- One round of the loop of `send`, which writes to the descriptor that it takes and to the
one before. -/
def sendRound (table : List Descriptor) (buffer : Buffer) (last : Option Nat)
    (descriptor : Nat) : List Descriptor :=
  Queue.linkLast (table.modify descriptor fun entry => entry.describe buffer) last descriptor

variable {descriptor : Nat} {last : Option Nat}

theorem length_sendRound :
    (sendRound table buffer last descriptor).length = table.length := by
  cases last <;> simp only [sendRound, Queue.linkLast, length_modify]

theorem sendRound_self (found : table[descriptor]? = some entry)
    (different : last ≠ some descriptor) :
    (sendRound table buffer last descriptor)[descriptor]? = some (entry.describe buffer) := by
  cases last with
  | none => exact modify_self found
  | some last =>
    rw [sendRound, Queue.linkLast, modify_of_ne fun same => different (congrArg some same.symm)]
    exact modify_self found

theorem sendRound_other (notHere : other ≠ descriptor) (notLast : last ≠ some other) :
    (sendRound table buffer last descriptor)[other]? = table[other]? := by
  cases last with
  | none => exact modify_of_ne notHere
  | some last =>
    rw [sendRound, Queue.linkLast, modify_of_ne fun same => notLast (congrArg some same.symm)]
    exact modify_of_ne notHere

/-- What the rest of the loop of `send` makes of a table, once its last descriptor is closed:
the descriptor that was the last one so far leads on to a chain of the buffers. -/
structure Extended (table closed : List Descriptor) (last : Nat) (entry : Descriptor)
    (descriptors : List Nat) (buffers : List Buffer) : Prop where
  next : closed[last]? = some (entry.setNext descriptors.head?)
  linked : Linked closed descriptors (buffers.map Buffer.cut)
  frame : ∀ other, other ∉ last :: descriptors → closed[other]? = table[other]?
  length : closed.length = table.length

variable {first : Nat} {rest stack : List Nat} {this : Queue}

theorem sendLoop_from {last} (chained : Chained buffers)
    (enough : descriptors.length = buffers.length) (distinct : (last :: descriptors).Nodup)
    (inside : ∀ descriptor ∈ descriptors, descriptor < table.length)
    (here : table[last]? = some entry) : ∃ final written,
      Queue.sendLoop buffers (some first) (some last) table (descriptors ++ rest) =
        some (some first, some final, written, rest) ∧
      Extended table (written.modify final fun entry => entry.setNext none) last entry
        descriptors buffers := by
  induction buffers generalizing descriptors last table entry with
  | nil =>
    obtain rfl := length_eq_zero_iff.mp enough
    refine ⟨last, table, rfl, modify_self here, trivial, fun other away => ?_, length_modify _ _ _⟩
    exact modify_of_ne (ne_of_not_mem_cons away)
  | cons buffer buffers ih =>
    cases descriptors with
    | nil => cases enough
    | cons descriptor descriptors =>
      obtain ⟨flag, chainedRest⟩ := chained
      obtain ⟨fresh, distinctRest⟩ := nodup_cons.mp distinct
      have different : last ≠ descriptor := fun same => fresh (same ▸ mem_cons_self)
      have small := inside descriptor mem_cons_self
      have described : (sendRound table buffer (some last) descriptor)[descriptor]? =
          some (table[descriptor].describe buffer) :=
        sendRound_self (getElem?_eq_getElem small)
          fun same => different (some_inj.mp same)
      have insideRest : ∀ index ∈ descriptors,
          index < (sendRound table buffer (some last) descriptor).length := by
        intro index member
        rw [length_sendRound]
        exact inside index (mem_cons_of_mem _ member)
      obtain ⟨final, written, played, extended⟩ :=
        ih chainedRest (succ.inj enough) distinctRest insideRest described
      refine ⟨final, written, ?_, ?_⟩
      · rw [cons_append, Queue.sendLoop, if_pos small]
        exact played
      · refine ⟨?_, ⟨?_, ?_, extended.linked⟩, fun other away => ?_, ?_⟩
        · rw [extended.frame last fresh]
          apply modify_self
          rw [modify_of_ne different]
          exact here
        · exact extended.next
        · rw [isEmpty_congr (succ.inj enough)]
          exact flag
        · have notRest := not_mem_of_not_mem_cons away
          rw [extended.frame other notRest]
          exact sendRound_other (ne_of_not_mem_cons notRest)
            fun same => ne_of_not_mem_cons away (some_inj.mp same).symm
        · rw [extended.length, length_sendRound]

/-- `send` panics when the free stack runs out. -/
theorem sendLoop_short {first} (short : stack.length < buffers.length) :
    Queue.sendLoop buffers first last table stack = none := by
  induction buffers generalizing first last table stack with
  | nil => exact absurd short (not_lt_zero _)
  | cons buffer buffers ih =>
    cases stack with
    | nil => rfl
    | cons descriptor stack =>
      rw [Queue.sendLoop]
      split
      · exact ih (lt_of_succ_lt_succ short)
      · rfl

/-- `send` takes as many descriptors as there are buffers from the front of the free stack
and links them.  It returns unless the index of the available ring overflows. -/
theorem send_eq (chained : Chained chain) (nonempty : chain ≠ [])
    (stack : this.descriptorStack = descriptors ++ rest)
    (enough : descriptors.length = chain.length) (distinct : descriptors.Nodup)
    (inside : ∀ descriptor ∈ descriptors, descriptor < this.descriptor.length) :
    ∃ first table, descriptors.head? = some first ∧
      this.send overflowChecks chain = (addU16 overflowChecks this.availableHead 1).map (fun head =>
        ({ this with
          descriptor := table
          descriptorStack := rest
          availableElements := this.availableElements.set
            (this.availableHead % this.availableElements.length) first
          availableHead := head }, first)) ∧
      Linked table descriptors (chain.map Buffer.cut) ∧
      (∀ other, other ∉ descriptors → table[other]? = this.descriptor[other]?) ∧
      table.length = this.descriptor.length := by
  cases chain with
  | nil => exact absurd rfl nonempty
  | cons buffer buffers =>
    cases descriptors with
    | nil => cases enough
    | cons descriptor descriptors =>
      obtain ⟨flag, chainedRest⟩ := chained
      have small := inside descriptor mem_cons_self
      have described : (sendRound this.descriptor buffer none descriptor)[descriptor]? =
          some (this.descriptor[descriptor].describe buffer) :=
        sendRound_self (getElem?_eq_getElem small) nofun
      have insideRest : ∀ index ∈ descriptors,
          index < (sendRound this.descriptor buffer none descriptor).length := by
        intro index member
        rw [length_sendRound]
        exact inside index (mem_cons_of_mem _ member)
      obtain ⟨final, written, played, extended⟩ := sendLoop_from chainedRest
        (succ.inj enough) distinct insideRest described
      refine ⟨descriptor, written.modify final fun entry => entry.setNext none, rfl, ?_, ?_, ?_, ?_⟩
      · have looped : Queue.sendLoop (buffer :: buffers) none none this.descriptor
            this.descriptorStack = some (some descriptor, some final, written, rest) := by
          rw [stack, cons_append, Queue.sendLoop, if_pos small]
          exact played
        rw [Queue.send, looped]
      · refine ⟨extended.next, ?_, extended.linked⟩
        rw [isEmpty_congr (succ.inj enough)]
        exact flag
      · intro other away
        rw [extended.frame other away]
        exact sendRound_other (ne_of_not_mem_cons away) nofun
      · rw [extended.length, length_sendRound]

theorem loop_recycle (linked : Linked table (first :: descriptors) buffers) {rounds}
    (enough : descriptors.length < rounds) : loop (Queue.recycleRound table) rounds (first, stack) =
      some (some (stack ++ first :: descriptors)) := by
  induction descriptors generalizing first stack buffers rounds with
  | nil =>
    obtain ⟨rounds, rfl⟩ := exists_eq_succ_of_ne_zero (ne_of_gt enough)
    cases buffers with
    | nil => exact linked.elim
    | cons buffer buffers =>
      obtain ⟨entry, flag, _⟩ := linked
      simp only [loop, Queue.recycleRound, entry, flag, isEmpty_nil, Bool.not_true,
        Bool.false_eq_true, if_false]
  | cons descriptor descriptors ih =>
    obtain ⟨rounds, rfl⟩ :=
      exists_eq_succ_of_ne_zero (ne_of_gt (zero_lt_of_lt enough))
    cases buffers with
    | nil => exact linked.elim
    | cons buffer buffers =>
      obtain ⟨entry, flag, rest⟩ := linked
      simp only [loop, Queue.recycleRound, entry, flag, isEmpty_cons, Bool.not_false,
        if_true, head?_cons, getD_some]
      rw [ih rest (lt_of_succ_lt_succ enough), append_assoc]
      rfl

theorem recycle_eq {chain} (linked : Linked this.descriptor chain buffers)
    (head : chain.head? = some first) (short : chain.length ≤ this.descriptor.length) :
    this.recycle first = some (this.descriptorStack ++ chain) := by
  cases chain with
  | nil => cases head
  | cons descriptor descriptors =>
    cases head
    rw [Queue.recycle, loop_recycle linked short]
    rfl

end EosBase.Virtio
