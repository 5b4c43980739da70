import EosBase.Lib.RingLog
import EosBase.Lib.Transition
import EosBase.Virtio.Queue
import Mathlib.Algebra.BigOperators.Group.List.Basic
import Mathlib.Data.List.Range
import Mathlib.Data.List.Perm.Subperm

/-!
# A virtqueue and its device

The device takes requests from the available ring in their order, and completes them one
at a time in any order.  A request is numbered by its place among all requests that were
sent, by which it is followed from the available ring to the used ring and back to its
future.
-/

namespace EosBase.Virtio

open List Nat

/-- A request whose future has not returned `Ready`, with its chain of descriptors. -/
structure Request where
  id : Nat
  firstDescriptor : Nat
  chain : List Nat
  buffers : List Buffer
  deriving DecidableEq

structure Job where
  id : Nat
  tableIndex : Nat

structure Traffic where
  queue : Queue
  requests : List Request
  /-- The first descriptors of all requests that were sent. -/
  sent : List Nat
  taken : Nat
  working : List Job
  /-- The entries of the used ring, with the requests that they are for. -/
  used : List (Nat × UsedRingElement)
  /-- The number of entries up to the last one whose future returned `Ready`. -/
  acknowledged : Nat

inductive TrafficEvent where
  /-- `Queue::send` of the chain of some buffers. -/
  | send (buffers : List Buffer)
  /-- The device takes the next request from the available ring. -/
  | take
  /-- The device completes a request. -/
  | use (index written : Nat)
  /-- `PendingRequest::poll`. -/
  | poll (id : Nat)

namespace Traffic

def send (overflowChecks : Bool) (this : Traffic) (buffers : List Buffer) : Option Traffic :=
  match ChainBuilder.ofBuffers buffers with
  | none => none
  | some chain =>
    (this.queue.send overflowChecks chain).map fun (queue, first) =>
      { this with
        queue
        requests := this.requests ++
          [⟨this.sent.length, first, this.queue.descriptorStack.take chain.length, chain⟩]
        sent := this.sent ++ [first] }

def take (this : Traffic) : Option Traffic :=
  if this.taken % 2 ^ 16 = this.queue.availableHead then none
  else
    this.queue.availableElements[this.taken % 2 ^ 16 % this.queue.availableElements.length]?.map
      fun tableIndex =>
        { this with
          taken := this.taken + 1, working := this.working ++ [⟨this.taken, tableIndex⟩] }

def use (this : Traffic) (index written : Nat) : Option Traffic :=
  this.working[index]?.map fun job =>
    { this with
      working := this.working.eraseIdx index
      queue := { this.queue with
        usedElements := this.queue.usedElements.set
          (this.queue.usedIndex % this.queue.usedElements.length) ⟨job.tableIndex, written⟩
        usedIndex := (this.queue.usedIndex + 1) % 2 ^ 16 }
      used := this.used ++ [(job.id, ⟨job.tableIndex, written⟩)] }

/-- The future that returns `Ready` is not polled again. -/
def poll (overflowChecks : Bool) (this : Traffic) (id : Nat) : Option (Traffic × Poll) :=
  match this.requests.find? (·.id == id) with
  | none => none
  | some request =>
    (this.queue.poll overflowChecks request.firstDescriptor).map fun
      | (queue, .pending) => ({ this with queue }, .pending)
      | (queue, .ready written) =>
        ({ this with
          queue
          requests := this.requests.erase request
          acknowledged := this.used.length }, .ready written)

def step (overflowChecks : Bool) (this : Traffic) : TrafficEvent → Option (Traffic × Option Poll)
  | .send buffers => (this.send overflowChecks buffers).map fun next => (next, none)
  | .take => this.take.map fun next => (next, none)
  | .use index written => (this.use index written).map fun next => (next, none)
  | .poll id => replied (this.poll overflowChecks id)

def new (size : Nat) : Traffic := ⟨.new size, [], [], 0, [], [], 0⟩

end Traffic

def virtqueue (overflowChecks : Bool) (size : Nat) : System Traffic TrafficEvent Poll where
  start := .new size
  step := Traffic.step overflowChecks

def QueueSize (size : Nat) : Prop :=
  0 < size ∧ size < 2 ^ 16 ∧ size ∣ 2 ^ 16

instance (size : Nat) : Decidable (QueueSize size) :=
  inferInstanceAs (Decidable (_ ∧ _))

/-- The descriptors are divided between the free stack and the chains of the requests, each
of which is linked in the table. -/
structure Divided (size : Nat) (queue : Queue) (requests : List Request) : Prop where
  table : queue.descriptor.length = size
  partition : (queue.descriptorStack ++ requests.flatMap Request.chain).Perm (range size)
  linked : ∀ request ∈ requests,
    Linked queue.descriptor request.chain (request.buffers.map Buffer.cut)
  heads : ∀ request ∈ requests, request.chain.head? = some request.firstDescriptor

structure Recorded (size : Nat) (state : Traffic) : Prop where
  availableSlots : state.queue.availableElements.length = size
  availableHead : state.queue.availableHead = state.sent.length % 2 ^ 16
  available : RingLog size (fun _ => 2 ^ 16 - 1) state.sent fun index =>
    state.queue.availableElements[index]?
  usedSlots : state.queue.usedElements.length = size
  usedIndex : state.queue.usedIndex = state.used.length % 2 ^ 16
  used : RingLog size Queue.usedBlank (state.used.map Prod.snd) fun index =>
    state.queue.usedElements[index]?
  usedHead : state.queue.usedHead = state.acknowledged % 2 ^ 16

/-- A request is waiting in the available ring, worked on, or used, until its future returns
`Ready`. -/
structure Followed (state : Traffic) : Prop where
  distinct : (state.requests.map Request.id).Nodup
  firsts : ∀ request ∈ state.requests, state.sent[request.id]? = some request.firstDescriptor
  behind : state.taken ≤ state.sent.length
  waiting : ∀ id, state.taken ≤ id → id < state.sent.length →
    id ∈ state.requests.map Request.id
  jobs : ∀ job ∈ state.working, state.sent[job.id]? = some job.tableIndex ∧
    job.id < state.taken ∧ job.id ∈ state.requests.map Request.id
  entries : ∀ entry ∈ state.used, state.sent[entry.1]? = some entry.2.tableIndex ∧
    entry.1 < state.taken
  once : (state.working.map Job.id ++ state.used.map Prod.fst).Nodup
  acknowledged : state.acknowledged ≤ state.used.length
  unreported : ∀ (position : Nat) entry, state.used[position]? = some entry →
    state.acknowledged ≤ position → entry.1 ∈ state.requests.map Request.id
  reported : ∀ entry, 0 < state.acknowledged →
    state.used[state.acknowledged - 1]? = some entry → entry.1 ∉ state.requests.map Request.id

structure Sane (size : Nat) (state : Traffic) : Prop where
  divided : Divided size state.queue state.requests
  recorded : Recorded size state
  followed : Followed state

variable {size : Nat} {state after : Traffic} {overflowChecks : Bool} {request : Request}
  {requests : List Request} {queue : Queue} {entry : Nat × UsedRingElement}

theorem sane_new : Sane size (.new size) where
  divided := by
    refine ⟨length_replicate, ?_, nofun, nofun⟩
    rw [Traffic.new, Queue.new, flatMap_nil, append_nil]
  recorded := by
    refine ⟨length_replicate, rfl, .replicate, ?_, rfl, .start fun index small => ?_, rfl⟩
    · rw [Traffic.new, Queue.new, length_map, length_range]
    · simp [Traffic.new, Queue.new, small]
  followed := by
    refine ⟨nodup_nil, nofun, le_rfl, ?_, nofun, nofun, nodup_nil, le_rfl, nofun, nofun⟩
    intro id _ small
    exact absurd small (not_lt_zero id)

namespace Divided

section

variable (divided : Divided size queue requests)

include divided

theorem nodup : (queue.descriptorStack ++ requests.flatMap Request.chain).Nodup :=
  divided.partition.nodup_iff.mpr nodup_range

theorem mem_iff {descriptor : Nat} :
    descriptor ∈ queue.descriptorStack ∨ (∃ request ∈ requests, descriptor ∈ request.chain) ↔
      descriptor < size := by
  rw [← mem_range, ← divided.partition.mem_iff, mem_append, mem_flatMap]

theorem chain_pos (member : request ∈ requests) : 0 < request.chain.length := by
  have head := divided.heads request member
  cases chain : request.chain with
  | nil =>
    rw [chain] at head
    cases head
  | cons descriptor descriptors => exact succ_pos _

theorem few : requests.length ≤ size := by
  have total := divided.partition.length_eq
  rw [length_append, length_range, length_flatMap] at total
  have each : requests.length ≤ (requests.map fun request => request.chain.length).sum := by
    rw [← length_map (fun request : Request => request.chain.length)]
    apply length_le_sum_of_one_le
    intro length listed
    obtain ⟨request, member, rfl⟩ := mem_map.mp listed
    exact divided.chain_pos member
  omega

theorem firstDescriptor_inj {other : Request} (member : request ∈ requests)
    (otherMembership : other ∈ requests)
    (same : request.firstDescriptor = other.firstDescriptor) : request = other := by
  by_contra different
  have apart := (nodup_flatMap.mp (nodup_append.mp divided.nodup).2.1).2
  have symmetric : Std.Symm (Function.onFun List.Disjoint Request.chain) :=
    ⟨fun _ _ => disjoint_symm⟩
  have disjoint := apart.forall member otherMembership different
  refine disjoint (mem_of_mem_head? (divided.heads request member)) ?_
  rw [same]
  exact mem_of_mem_head? (divided.heads other otherMembership)

end

end Divided

namespace Sane

variable (sane : Sane size state)

include sane

theorem few {ids : List Nat} (distinct : ids.Nodup)
    (known : ∀ id ∈ ids, id ∈ state.requests.map Request.id) : ids.length ≤ size := by
  have short := (subperm_of_subset distinct known).length_le
  rw [length_map] at short
  exact short.trans sane.divided.few

theorem near_available : state.sent.length ≤ state.taken + size := by
  have short : (range' state.taken (state.sent.length - state.taken)).length ≤ size := by
    apply sane.few nodup_range'
    intro id member
    obtain ⟨above, below⟩ := mem_range'_1.mp member
    exact sane.followed.waiting id above (by omega)
  rw [length_range'] at short
  omega

theorem near_used : state.used.length ≤ state.acknowledged + size := by
  have short : ((state.used.drop state.acknowledged).map Prod.fst).length ≤ size := by
    apply sane.few
    · have all := (nodup_append.mp sane.followed.once).2.1
      exact all.sublist ((drop_sublist _ _).map _)
    · intro id member
      obtain ⟨entry, dropped, rfl⟩ := mem_map.mp member
      obtain ⟨offset, found⟩ := mem_iff_getElem?.mp dropped
      rw [getElem?_drop] at found
      exact sane.followed.unreported _ entry found (le_add_right _ _)
  rw [length_map, length_drop] at short
  omega

theorem usedIndex_eq_usedHead_iff (fits : QueueSize size) :
    state.queue.usedIndex = state.queue.usedHead ↔ state.used.length = state.acknowledged := by
  have near := sane.near_used
  have behind := sane.followed.acknowledged
  have small := fits.2.1
  rw [sane.recorded.usedIndex, sane.recorded.usedHead]
  omega

theorem last_element (fits : QueueSize size) (last : state.used.getLast? = some entry) :
    state.queue.usedElements[(state.queue.usedIndex + 2 ^ 16 - 1) % 2 ^ 16 %
      state.queue.usedElements.length]? = some entry.2 := by
  have found := last
  rw [getLast?_eq_getElem?] at found
  obtain ⟨inside, same⟩ := List.getElem?_eq_some_iff.mp found
  have slot : (state.queue.usedIndex + 2 ^ 16 - 1) % 2 ^ 16 % state.queue.usedElements.length =
      (state.used.length - 1) % size := by
    have wrapped : (state.queue.usedIndex + 2 ^ 16 - 1) % 2 ^ 16 =
        (state.used.length - 1) % 2 ^ 16 := by
      rw [sane.recorded.usedIndex]
      omega
    rw [wrapped, sane.recorded.usedSlots, mod_mod_of_dvd _ fits.2.2]
  rw [slot]
  apply sane.recorded.used.recent
  · rw [getElem?_map, found]
    rfl
  · rw [length_map]
    have positive := fits.1
    omega

end Sane

theorem Divided.send (divided : Divided size queue requests) (overflowChecks : Bool)
    {chain : List Buffer} (chained : Chained chain) (nonempty : chain ≠ [])
    (enough : chain.length ≤ queue.descriptorStack.length) :
    ∃ first table, queue.send overflowChecks chain =
        (addU16 overflowChecks queue.availableHead 1).map (fun head =>
          ({ queue with
            descriptor := table
            descriptorStack := queue.descriptorStack.drop chain.length
            availableElements := queue.availableElements.set
              (queue.availableHead % queue.availableElements.length) first
            availableHead := head }, first)) ∧
      ∀ (changed : Queue) (id : Nat), changed.descriptor = table →
        changed.descriptorStack = queue.descriptorStack.drop chain.length →
        Divided size changed
          (requests ++ [⟨id, first, queue.descriptorStack.take chain.length, chain⟩]) := by
  have taken : queue.descriptorStack.take chain.length ++ queue.descriptorStack.drop chain.length =
      queue.descriptorStack := take_append_drop _ _
  have apart := divided.nodup
  have distinct : (queue.descriptorStack.take chain.length).Nodup :=
    (nodup_append.mp apart).1.sublist (take_sublist _ _)
  have inside : ∀ descriptor ∈ queue.descriptorStack.take chain.length,
      descriptor < queue.descriptor.length := by
    intro descriptor member
    rw [divided.table]
    exact (divided.mem_iff).mp (.inl (mem_of_mem_take member))
  obtain ⟨first, table, head, sent, linked, frame, length⟩ :=
    send_eq chained nonempty taken.symm (length_take_of_le enough) distinct
      inside
  refine ⟨first, table, sent, fun changed id isTable isStack => ⟨?_, ?_, ?_, ?_⟩⟩
  · rw [isTable, length]
    exact divided.table
  · refine List.Perm.trans ?_ divided.partition
    rw [isStack, flatMap_append, flatMap_singleton, ← append_assoc]
    refine perm_append_comm.trans ?_
    rw [← append_assoc, taken]
  · intro request member
    rw [isTable]
    rcases mem_append.mp member with old | new
    · refine (divided.linked request old).congr fun descriptor inChain => frame descriptor ?_
      intro popped
      have disjoint := (nodup_append.mp apart).2.2
      exact disjoint descriptor (mem_of_mem_take popped) descriptor
        (mem_flatMap.mpr ⟨request, old, inChain⟩) rfl
    · rw [mem_singleton.mp new]
      exact linked
  · intro request member
    rcases mem_append.mp member with old | new
    · exact divided.heads request old
    · rw [mem_singleton.mp new]
      exact head

theorem Followed.send (followed : Followed state) (new : request.id = state.sent.length) :
    Followed { state with
      queue
      requests := state.requests ++ [request]
      sent := state.sent ++ [request.firstDescriptor] } := by
  have known : ∀ {id : Nat}, id ∈ state.requests.map Request.id →
      id ∈ (state.requests ++ [request]).map Request.id := by
    intro id member
    rw [map_append]
    exact mem_append_left _ member
  have earlier : ∀ {id found : Nat}, state.sent[id]? = some found →
      (state.sent ++ [request.firstDescriptor])[id]? = some found := by
    intro id found lookup
    rw [List.getElem?_append_left (List.getElem?_eq_some_iff.mp lookup).1]
    exact lookup
  have fresh : state.sent.length ∉ state.requests.map Request.id := by
    intro member
    obtain ⟨request, old, same⟩ := mem_map.mp member
    have inside := (List.getElem?_eq_some_iff.mp (followed.firsts request old)).1
    omega
  refine ⟨?_, ?_, ?_, ?_, ?_, ?_, followed.once, followed.acknowledged, ?_, ?_⟩
  · rw [map_append, map_singleton, ← concat_eq_append, new]
    exact followed.distinct.concat fresh
  · intro other member
    rcases mem_append.mp member with old | last
    · exact earlier (followed.firsts other old)
    · rw [mem_singleton.mp last, new]
      exact getElem?_concat_length
  · rw [length_append]
    exact le_add_right_of_le followed.behind
  · intro id above below
    rw [length_append, length_singleton] at below
    by_cases last : id = state.sent.length
    · rw [last, ← new, map_append]
      exact mem_append_right _ mem_cons_self
    · exact known (followed.waiting id above (by omega))
  · intro job member
    obtain ⟨found, old, pending⟩ := followed.jobs job member
    exact ⟨earlier found, old, known pending⟩
  · intro entry member
    obtain ⟨found, old⟩ := followed.entries entry member
    exact ⟨earlier found, old⟩
  · intro position entry found later
    exact known (followed.unreported position entry found later)
  · intro entry positive found member
    rw [map_append, map_singleton] at member
    rcases mem_append.mp member with old | last
    · exact followed.reported entry positive found old
    have same : entry.1 = state.sent.length := (mem_singleton.mp last).trans new
    have old := (followed.entries entry (mem_of_getElem? found)).2
    have behind := followed.behind
    omega

theorem Sane.send (sane : Sane size state) (fits : QueueSize size) {buffers : List Buffer}
    (sent : state.send overflowChecks buffers = some after) : Sane size after := by
  rw [Traffic.send] at sent
  split at sent
  · cases sent
  next chain built =>
  obtain ⟨chained, nonempty, _⟩ := ofBuffers_chained built
  obtain ⟨⟨queue, first⟩, returned, rfl⟩ := Option.map_eq_some_iff.mp sent
  have enough : chain.length ≤ state.queue.descriptorStack.length := by
    by_contra short
    rw [Queue.send, sendLoop_short (not_le.mp short)] at returned
    cases returned
  obtain ⟨head, table, played, divided⟩ :=
    sane.divided.send overflowChecks chained nonempty enough
  rw [played] at returned
  obtain ⟨index, added, same⟩ := Option.map_eq_some_iff.mp returned
  cases same
  have small : state.queue.availableHead < 2 ^ 16 := by
    rw [sane.recorded.availableHead]
    exact mod_lt _ (by decide)
  rw [addU16_one small] at added
  split at added
  · cases added
  cases added
  have recorded := sane.recorded
  refine ⟨divided _ _ rfl rfl, ?_, sane.followed.send rfl⟩
  refine { recorded with availableSlots := ?_, availableHead := ?_, available := ?_ }
  · rw [length_set]
    exact recorded.availableSlots
  · rw [length_append, length_singleton, recorded.availableHead, mod_add_mod]
  · apply recorded.available.set fits.1 recorded.availableSlots
    rw [recorded.availableHead, recorded.availableSlots, mod_mod_of_dvd _ fits.2.2]

section

variable (sane : Sane size state)

include sane

theorem Sane.take_eq (fits : QueueSize size) :
    (state.taken = state.sent.length ∧ state.take = none) ∨
      ∃ first, state.sent[state.taken]? = some first ∧ state.take = some { state with
        taken := state.taken + 1, working := state.working ++ [⟨state.taken, first⟩] } := by
  have near := sane.near_available
  have behind := sane.followed.behind
  have small := fits.2.1
  rcases lt_or_eq_of_le behind with more | all
  · right
    have found := getElem?_eq_getElem more
    refine ⟨_, found, ?_⟩
    have waiting : state.taken % 2 ^ 16 ≠ state.queue.availableHead := by
      rw [sane.recorded.availableHead]
      omega
    have element := sane.recorded.available.recent _ _ found near
    rw [Traffic.take, if_neg waiting, sane.recorded.availableSlots,
      mod_mod_of_dvd _ fits.2.2, element]
    rfl
  · left
    refine ⟨all, if_pos ?_⟩
    rw [sane.recorded.availableHead, all]

theorem Sane.take (fits : QueueSize size) (taken : state.take = some after) : Sane size after := by
  rcases sane.take_eq fits with ⟨_, nothing⟩ | ⟨first, found, same⟩
  · rw [nothing] at taken
    cases taken
  rw [same] at taken
  cases taken
  have followed := sane.followed
  have inside := (List.getElem?_eq_some_iff.mp found).1
  refine ⟨sane.divided, { sane.recorded with }, ?_⟩
  refine { followed with behind := inside, waiting := ?_, jobs := ?_, entries := ?_, once := ?_ }
  · intro id above below
    exact followed.waiting id (le_of_succ_le above) below
  · intro job member
    rcases mem_append.mp member with old | new
    · obtain ⟨lookup, earlier, pending⟩ := followed.jobs job old
      exact ⟨lookup, lt_succ_of_lt earlier, pending⟩
    · rw [mem_singleton.mp new]
      exact ⟨found, lt_succ_self _, followed.waiting _ le_rfl inside⟩
  · intro entry member
    obtain ⟨lookup, earlier⟩ := followed.entries entry member
    exact ⟨lookup, lt_succ_of_lt earlier⟩
  · rw [map_append, map_singleton, append_assoc, singleton_append]
    refine perm_middle.nodup_iff.mpr (nodup_cons.mpr ⟨?_, followed.once⟩)
    intro member
    rcases mem_append.mp member with old | new
    · obtain ⟨job, working, same⟩ := mem_map.mp old
      exact absurd (followed.jobs job working).2.1 (by rw [same]; exact lt_irrefl _)
    · obtain ⟨entry, used, same⟩ := mem_map.mp new
      exact absurd (followed.entries entry used).2 (by rw [same]; exact lt_irrefl _)

theorem Sane.use (fits : QueueSize size) {index written : Nat}
    (used : state.use index written = some after) : Sane size after := by
  obtain ⟨job, found, rfl⟩ := Option.map_eq_some_iff.mp used
  obtain ⟨inside, rfl⟩ := List.getElem?_eq_some_iff.mp found
  have followed := sane.followed
  have recorded := sane.recorded
  have here := followed.jobs _ (mem_of_getElem? found)
  have behind := followed.acknowledged
  refine ⟨{ sane.divided with }, ?_, ?_⟩
  · refine { recorded with usedSlots := ?_, usedIndex := ?_, used := ?_ }
    · rw [length_set]
      exact recorded.usedSlots
    · rw [length_append, length_singleton, recorded.usedIndex, mod_add_mod]
    · rw [map_append, map_singleton]
      apply recorded.used.set fits.1 recorded.usedSlots
      rw [recorded.usedIndex, recorded.usedSlots, mod_mod_of_dvd _ fits.2.2, length_map]
  · refine { followed with
      jobs := ?_
      entries := ?_
      once := ?_
      acknowledged := ?_
      unreported := ?_
      reported := ?_ }
    · intro job member
      exact followed.jobs job (mem_of_mem_eraseIdx member)
    · intro entry member
      rcases mem_append.mp member with old | new
      · exact followed.entries entry old
      · rw [mem_singleton.mp new]
        exact ⟨here.1, here.2.1⟩
    · refine List.Perm.nodup_iff ?_ |>.mpr followed.once
      rw [map_append, map_singleton, ← append_assoc]
      refine perm_append_comm.trans ?_
      exact ((getElem_cons_eraseIdx_perm inside).map Job.id).append_right _
    · rw [length_append]
      exact le_add_right_of_le behind
    · apply forall_getElem?_concat followed.unreported
      intro _
      exact here.2.2
    · intro entry positive lookup
      have last : state.acknowledged - 1 < state.used.length := by
        change 0 < state.acknowledged at positive
        omega
      rw [getElem?_append_left last] at lookup
      exact followed.reported entry positive lookup

end

theorem Sane.entry_id (sane : Sane size state) {position : Nat}
    (found : state.used[position]? = some entry) (later : state.acknowledged ≤ position)
    (member : request ∈ state.requests) :
    entry.2.tableIndex = request.firstDescriptor ↔ entry.1 = request.id := by
  have followed := sane.followed
  have named := (followed.entries entry (mem_of_getElem? found)).1
  constructor
  · intro same
    obtain ⟨other, pending, isOther⟩ :=
      mem_map.mp (followed.unreported position entry found later)
    have first := followed.firsts other pending
    rw [isOther, named] at first
    have equal := sane.divided.firstDescriptor_inj pending member
      ((Option.some_inj.mp first).symm.trans same)
    rw [← isOther, equal]
  · intro same
    rw [same, followed.firsts request member] at named
    exact (Option.some_inj.mp named).symm

/-- What the poll of a request comes to: nothing new was used, the index underflows, or the
last entry decides. -/
inductive Polled (overflowChecks : Bool) (state : Traffic) (request : Request) : Prop where
  | nothing (all : state.used.length = state.acknowledged)
      (polled : state.queue.poll overflowChecks request.firstDescriptor =
        some (state.queue, .pending))
  | underflow (more : state.acknowledged < state.used.length) (checked : overflowChecks = true)
      (zero : state.queue.usedIndex = 0)
      (polled : state.queue.poll overflowChecks request.firstDescriptor = none)
  | other (entry : Nat × UsedRingElement) (more : state.acknowledged < state.used.length)
      (fine : ¬ (overflowChecks = true ∧ state.queue.usedIndex = 0))
      (last : state.used.getLast? = some entry) (different : entry.1 ≠ request.id)
      (polled : state.queue.poll overflowChecks request.firstDescriptor =
        some (state.queue, .pending))
  | own (entry : Nat × UsedRingElement) (more : state.acknowledged < state.used.length)
      (fine : ¬ (overflowChecks = true ∧ state.queue.usedIndex = 0))
      (last : state.used.getLast? = some entry) (same : entry.1 = request.id)
      (polled : state.queue.poll overflowChecks request.firstDescriptor = some ({ state.queue with
          descriptorStack := state.queue.descriptorStack ++ request.chain
          usedHead := state.queue.usedIndex }, .ready entry.2.written))

theorem Sane.polled (sane : Sane size state) (fits : QueueSize size) (overflowChecks : Bool)
    (member : request ∈ state.requests) : Polled overflowChecks state request := by
  have fresh := sane.usedIndex_eq_usedHead_iff fits
  have behind := sane.followed.acknowledged
  by_cases all : state.used.length = state.acknowledged
  · exact .nothing all (if_pos (fresh.mpr all))
  have more : state.acknowledged < state.used.length := by omega
  have small : state.queue.usedIndex < 2 ^ 16 := by
    rw [sane.recorded.usedIndex]
    exact mod_lt _ (by decide)
  by_cases panics : overflowChecks = true ∧ state.queue.usedIndex = 0
  · refine .underflow more panics.1 panics.2 ?_
    rw [Queue.poll, if_neg (mt fresh.mp all), subU16_one small, if_pos panics]
  obtain ⟨entry, last⟩ : ∃ entry, state.used.getLast? = some entry := by
    rw [getLast?_eq_getElem?]
    exact ⟨_, getElem?_eq_getElem (by omega)⟩
  have position : state.used[state.used.length - 1]? = some entry := by
    rw [← getLast?_eq_getElem?]
    exact last
  have own := sane.entry_id position (by omega) member
  have polled : state.queue.poll overflowChecks request.firstDescriptor =
      if entry.2.tableIndex = request.firstDescriptor then
        (state.queue.recycle request.firstDescriptor).map fun stack =>
          ({ state.queue with descriptorStack := stack, usedHead := state.queue.usedIndex },
            .ready entry.2.written)
      else some (state.queue, .pending) := by
    simp only [Queue.poll, if_neg (mt fresh.mp all), subU16_one small, if_neg panics,
      sane.last_element fits last]
  by_cases same : entry.1 = request.id
  · refine .own entry more panics last same ?_
    have short : request.chain.length ≤ state.queue.descriptor.length := by
      have total := sane.divided.partition.length_eq
      have part := (sublist_flatten_of_mem (mem_map_of_mem (f := Request.chain) member)).length_le
      rw [length_append, length_range, flatMap] at total
      rw [sane.divided.table]
      omega
    rw [polled, if_pos (own.mpr same), recycle_eq (sane.divided.linked request member)
      (sane.divided.heads request member) short]
    rfl
  · refine .other entry more panics last same ?_
    rw [polled, if_neg (mt own.mp same)]

theorem Divided.recycle (divided : Divided size queue requests) (member : request ∈ requests)
    {usedHead : Nat} :
    Divided size { queue with
      descriptorStack := queue.descriptorStack ++ request.chain, usedHead }
      (requests.erase request) := by
  refine ⟨divided.table, ?_, ?_, ?_⟩
  · refine List.Perm.trans ?_ divided.partition
    rw [append_assoc]
    apply List.Perm.append_left
    exact (perm_cons_erase member).symm.flatMap_right _
  · intro other pending
    exact divided.linked other (mem_of_mem_erase pending)
  · intro other pending
    exact divided.heads other (mem_of_mem_erase pending)

/-- A request is followed no longer when its future returns `Ready` with the last entry. -/
theorem Followed.ready (followed : Followed state) (member : request ∈ state.requests)
    (last : state.used.getLast? = some entry) (same : entry.1 = request.id) :
    Followed { state with
      queue
      requests := state.requests.erase request
      acknowledged := state.used.length } := by
  have used := mem_of_mem_getLast? last
  have taken := (followed.entries entry used).2
  have apart : ((request :: state.requests.erase request).map Request.id).Nodup :=
    ((perm_cons_erase member).map Request.id).nodup_iff.mp followed.distinct
  obtain ⟨gone, distinct⟩ := nodup_cons.mp apart
  have kept : ∀ {id : Nat}, id ∈ state.requests.map Request.id → id ≠ request.id →
      id ∈ (state.requests.erase request).map Request.id := by
    intro id pending different
    obtain ⟨other, old, rfl⟩ := mem_map.mp pending
    apply mem_map_of_mem
    exact (mem_erase_of_ne fun equal => different (congrArg Request.id equal)).mpr old
  refine ⟨distinct, ?_, followed.behind, ?_, ?_, followed.entries, followed.once, le_rfl, ?_, ?_⟩
  · intro other pending
    exact followed.firsts other (mem_of_mem_erase pending)
  · intro id above below
    refine kept (followed.waiting id above below) ?_
    change state.taken ≤ id at above
    omega
  · intro job working
    obtain ⟨found, earlier, pending⟩ := followed.jobs job working
    refine ⟨found, earlier, kept pending ?_⟩
    intro equal
    have disjoint := (nodup_append.mp followed.once).2.2
    exact disjoint job.id (mem_map_of_mem working) entry.1 (mem_map_of_mem used)
      (equal.trans same.symm)
  · intro position found lookup later
    have inside := (List.getElem?_eq_some_iff.mp lookup).1
    exact absurd inside (not_lt.mpr later)
  · intro found _ lookup
    rw [← getLast?_eq_getElem?, last] at lookup
    cases lookup
    rw [same]
    exact gone

theorem Sane.poll (sane : Sane size state) (fits : QueueSize size) {id : Nat} :
    Ends (fun polled => Sane size polled.1) (state.poll overflowChecks id) := by
  rw [Traffic.poll]
  split
  · trivial
  next request found =>
  have member := mem_of_find?_eq_some found
  cases sane.polled fits overflowChecks member with
  | nothing _ same | other _ _ _ _ _ same =>
    rw [same]
    exact sane
  | underflow more checked zero same =>
    rw [same]
    trivial
  | own entry more fine last isOwn same =>
    rw [same]
    refine ⟨sane.divided.recycle member, ?_, sane.followed.ready member last isOwn⟩
    exact { sane.recorded with usedHead := sane.recorded.usedIndex }

theorem sane_reachable (fits : QueueSize size)
    (reached : (virtqueue overflowChecks size).Reachable state) : Sane size state := by
  apply System.ReachableWhile.invariant reached sane_new
  intro before event after output _ sane _ stepped
  cases event with
  | send buffers =>
    obtain ⟨next, sent, same⟩ := Option.map_eq_some_iff.mp stepped
    cases same
    exact sane.send fits sent
  | take =>
    obtain ⟨next, taken, same⟩ := Option.map_eq_some_iff.mp stepped
    cases same
    exact sane.take fits taken
  | use index written =>
    obtain ⟨next, used, same⟩ := Option.map_eq_some_iff.mp stepped
    cases same
    exact sane.use fits used
  | poll id =>
    obtain ⟨result, _, polled⟩ := of_replied stepped
    exact (sane.poll fits).of_eq polled

end EosBase.Virtio
