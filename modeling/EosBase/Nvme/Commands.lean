import EosBase.Nvme.Queues
import Mathlib.Data.List.Perm.Basic
import Mathlib.Data.List.Nodup

/-!
# Entries and identifiers of live commands

A slot of the submission queue is written again only after its entry was fetched, and
commands that are in progress have different identifiers, as long as no command takes
longer than a lap of the queue.
-/

namespace EosBase.Nvme

open List QueuePair Nat Option

/-- Each entry was fetched as it was submitted, before its slot was written again, and no
two commands in progress have the same identifier. -/
structure Safe (state : QueuePair) : Prop where
  unmodified : state.fetched = state.submitted.take state.fetched.length
  inTime : ∀ position, position + 64 < state.submitted.length → position < state.fetched.length
  distinct : state.live.Nodup

/-- No command in progress has the identifier of a submission that is not refused, which is
the tail. -/
def Spaced (state : QueuePair) : QueueEvent → Prop
  | .trySubmit _ => state.sq.isFull = false → state.sq.tail ∉ state.live
  | _ => True

instance (state : QueuePair) (event : QueueEvent) : Decidable (Spaced state event) := by
  unfold Spaced
  split <;> infer_instance

structure Submissions (state : QueuePair) : Prop where
  slots : state.sq.data.length = 64
  tail : state.sq.tail = state.submitted.length % 64
  doorbell : state.tailDoorbell = state.submitted.length % 64
  log : RingLog 64 (fun _ => .zeroed) state.submitted fun index => state.sq.data[index]?
  head : state.fetchHead = state.fetched.length % 64
  order : state.fetched = state.submitted.take state.fetched.length
  behind : state.fetched.length ≤ state.submitted.length
  near : state.submitted.length ≤ state.fetched.length + 64
  numbers : ∀ (position : Nat) (cmd : NvmeCmd), state.submitted[position]? = some cmd →
    cmd.cid = position % 64

structure Completions (state : QueuePair) : Prop where
  slots : state.cq.data.length = 256
  head : state.cq.head = state.polled % 256
  lap : state.cq.phase = phase 256 state.polled
  log : RingLog 256 (fun _ => .zeroed) state.posted fun index => state.cq.data[index]?
  tags : ∀ (position : Nat) (comp : NvmeComp), state.posted[position]? = some comp →
    comp.phaseTag = phase 256 position
  behind : state.polled ≤ state.posted.length
  near : state.posted.length ≤ state.polled + 256

structure Orderly (state : QueuePair) : Prop where
  submissions : Submissions state
  completions : Completions state
  distinct : state.live.Nodup

variable {state after : QueuePair}

theorem orderly_new : Orderly .new where
  submissions := by
    exact ⟨length_replicate, rfl, rfl, .replicate, rfl, rfl, le_rfl, zero_le _, nofun⟩
  completions := by
    exact ⟨length_replicate, rfl, rfl, .replicate, nofun, le_rfl, zero_le _⟩
  distinct := nodup_nil

/-- A slot whose entry was not fetched belongs to a command in progress. -/
theorem Submissions.tail_live (submissions : Submissions state)
    (lap : state.submitted.length = state.fetched.length + 64) : state.sq.tail ∈ state.live := by
  have inside : state.fetched.length < state.submitted.length := by omega
  have number := submissions.numbers _ _ (List.getElem?_eq_getElem inside)
  rw [live, drop_eq_getElem_cons inside, map_cons, number, submissions.tail, lap, add_mod_right]
  exact mem_cons_self

theorem Orderly.trySubmit (orderly : Orderly state) {cmd}
    (spaced : Spaced state (.trySubmit cmd)) : Orderly (state.trySubmit cmd) := by
  rw [QueuePair.trySubmit, trySubmitRaw]
  by_cases full : state.sq.isFull = true
  · rw [if_pos full]
    exact orderly
  rw [if_neg full]
  have fresh := spaced (Bool.eq_false_iff.mpr full)
  obtain ⟨submissions, completions, distinct⟩ := orderly
  have tail := submissions.tail
  have longer : ∀ entry : NvmeCmd, (state.submitted ++ [entry]).length =
      state.submitted.length + 1 := fun _ => length_append
  have advanced : (state.sq.tail + 1) % state.sq.data.length =
      (state.submitted.length + 1) % 64 := by
    rw [submissions.slots, tail, mod_add_mod]
  constructor
  · refine ⟨?_, ?_, ?_, ?_, submissions.head, ?_, ?_, ?_, ?_⟩
    · rw [NvmeCmdQueue.submitUnchecked, length_set]
      exact submissions.slots
    · rw [longer]
      exact advanced
    · rw [longer]
      exact advanced
    · exact submissions.log.set (by decide) submissions.slots tail
    · rw [take_append_of_le_length submissions.behind]
      exact submissions.order
    · rw [longer]
      exact le_succ_of_le submissions.behind
    · rw [longer]
      exact lt_of_le_of_ne submissions.near (mt submissions.tail_live fresh)
    · exact forall_getElem?_concat submissions.numbers tail
  · exact { completions with }
  · have added : ({ state with
        submitted := state.submitted ++ [{ cmd with cid := state.sq.tail }] } :
          QueuePair).live.Perm (state.sq.tail :: state.live) := by
      simp only [live, drop_append_of_le_length submissions.behind,
        map_append, map_cons, map_nil, append_assoc, singleton_append]
      exact perm_middle
    exact added.nodup_iff.mpr (nodup_cons.mpr ⟨fresh, distinct⟩)

theorem Orderly.fetch (orderly : Orderly state)
    (fetched : state.fetch = some after) : Orderly after := by
  obtain ⟨submissions, completions, distinct⟩ := orderly
  have near := submissions.near
  rw [QueuePair.fetch] at fetched
  split at fetched
  · cases fetched
  next waiting =>
  obtain ⟨cmd, found, rfl⟩ := map_eq_some_iff.mp fetched
  have more : state.fetched.length < state.submitted.length := by
    have behind := submissions.behind
    rw [submissions.head, submissions.doorbell] at waiting
    by_contra all
    exact waiting (congrArg (· % 64) (by omega))
  have entry := List.getElem?_eq_getElem more
  have slot := submissions.log.recent _ _ entry (by omega)
  rw [submissions.head, slot] at found
  cases found
  have longer : (state.fetched ++ [state.submitted[state.fetched.length]]).length =
      state.fetched.length + 1 := length_append
  constructor
  · refine ⟨submissions.slots, submissions.tail, submissions.doorbell, submissions.log, ?_, ?_, ?_,
      ?_, submissions.numbers⟩
    · rw [longer, submissions.slots, submissions.head, mod_add_mod]
    · rw [longer, take_add_one, entry, ← submissions.order]
      rfl
    · rw [longer]
      exact more
    · rw [longer]
      exact near.trans (by omega)
  · exact { completions with }
  · refine List.Perm.nodup_iff ?_ |>.mpr distinct
    simp only [live, longer, drop_eq_getElem_cons more, map_append,
      map_cons, map_nil, cons_append, append_assoc]
    exact (perm_middle.append_left _).trans perm_middle

def QueuePair.post (this : QueuePair) (comp : NvmeComp) : QueuePair :=
  { this with
    cq := { this.cq with
      data := this.cq.data.set (this.posted.length % this.cq.data.length) comp }
    posted := this.posted ++ [comp] }

variable {comp : NvmeComp}

theorem Completions.post (completions : Completions state)
    (tag : comp.phaseTag = phase state.cq.data.length state.posted.length)
    (space : state.posted.length < state.polled + state.cq.data.length) :
    Completions (state.post comp) := by
  rw [completions.slots] at tag space
  have longer : (state.posted ++ [comp]).length = state.posted.length + 1 := length_append
  refine ⟨?_, completions.head, completions.lap, ?_, ?_, ?_, ?_⟩
  · exact length_set.trans completions.slots
  · apply completions.log.set (by decide) completions.slots
    rw [completions.slots]
  · exact forall_getElem?_concat completions.tags tag
  · exact longer ▸ le_succ_of_le completions.behind
  · exact longer ▸ space

theorem Orderly.complete (orderly : Orderly state) {index}
    (completed : state.complete index comp = some after) : Orderly after := by
  obtain ⟨submissions, completions, distinct⟩ := orderly
  rw [QueuePair.complete] at completed
  split at completed
  · cases completed
  next cmd found =>
  split at completed
  next truthful =>
    obtain ⟨cid, _, tag, space⟩ := truthful
    cases completed
    have behind := completions.behind
    constructor
    · exact { submissions with }
    · exact { completions.post tag space with }
    · refine List.Perm.nodup_iff ?_ |>.mpr distinct
      obtain ⟨inside, rfl⟩ := List.getElem?_eq_some_iff.mp found
      have taken := (getElem_cons_eraseIdx_perm inside).map NvmeCmd.cid
      simp only [live, drop_append_of_le_length behind, map_append, map_singleton]
      apply List.Perm.append_left
      rw [cid, ← append_assoc]
      refine perm_append_comm.trans ?_
      exact taken.append_right _
  · cases completed

theorem Completions.complete (completions : Completions state) :
    (state.posted.length = state.polled ∧ state.cq.complete = none) ∨
      ∃ comp, state.posted[state.polled]? = some comp ∧
        state.cq.complete = some (⟨state.cq.data, (state.polled + 1) % 256,
          phase 256 (state.polled + 1)⟩, comp) := by
  obtain ⟨entry, found, fresh, next⟩ :=
    completions.log.read (fun _ => (by decide : NvmeComp.zeroed.phaseTag = false))
      completions.tags (by decide) completions.behind completions.near
  simp only [NvmeCompQueue.complete, completions.head, completions.lap, completions.slots, found]
  by_cases more : state.polled < state.posted.length
  · right
    refine ⟨entry, next more, ?_⟩
    rw [if_pos (fresh.mpr more), mod_add_mod]
    by_cases wrap : (state.polled + 1) % 256 = 0
    · rw [if_pos wrap, phase_succ_of_mod wrap]
    · rw [if_neg wrap, phase_succ wrap]
  · left
    exact ⟨le_antisymm (not_lt.mp more) completions.behind, if_neg (mt fresh.mp more)⟩

theorem Orderly.pollCqe (orderly : Orderly state) : Orderly state.pollCqe := by
  obtain ⟨submissions, completions, distinct⟩ := orderly
  rw [QueuePair.pollCqe]
  rcases completions.complete with ⟨_, nothing⟩ | ⟨comp, next, taken⟩
  · rw [nothing]
    exact ⟨submissions, completions, distinct⟩
  rw [taken]
  obtain ⟨more, rfl⟩ := List.getElem?_eq_some_iff.mp next
  constructor
  · exact { submissions with }
  · refine { completions with head := rfl, lap := rfl, behind := more, near := ?_ }
    exact completions.near.trans (Nat.add_le_add_right (Nat.le_succ _) 256)
  · refine distinct.sublist ?_
    simp only [live, drop_eq_getElem_cons more, map_cons]
    exact (List.Sublist.refl _).append ((List.Sublist.refl _).append (sublist_cons_self _ _))

theorem orderly_reachable (reached : queuePair.ReachableWhile Spaced state) : Orderly state := by
  apply reached.invariant orderly_new
  intro before event after output _ orderly spaced stepped
  cases event with
  | trySubmit cmd =>
    cases stepped
    exact orderly.trySubmit spaced
  | fetch =>
    obtain ⟨next, fetched, same⟩ := map_eq_some_iff.mp stepped
    cases same
    exact orderly.fetch fetched
  | complete index comp =>
    obtain ⟨next, completed, same⟩ := map_eq_some_iff.mp stepped
    cases same
    exact orderly.complete completed
  | pollCqe =>
    cases stepped
    exact orderly.pollCqe

/-- In every run whose submissions are spaced, entries are fetched as they were submitted
and before their slots are written again, and the identifiers in progress are distinct. -/
theorem live_commands_safe (reached : queuePair.ReachableWhile Spaced state) : Safe state := by
  have orderly := orderly_reachable reached
  refine ⟨orderly.submissions.order, ?_, orderly.distinct⟩
  have near := orderly.submissions.near
  omega

/-- Two commands, of which the first is completed before the second is submitted. -/
theorem live_commands_safe_in_turn : ∃ state, queuePair.ReachableWhile Spaced state ∧
    (state.polled = 1 ∧ state.submitted.length = 2) ∧ Safe state := by
  have reaches : ∃ state, queuePair.ReachableWhile Spaced state ∧
      (state.polled = 1 ∧ state.submitted.length = 2) :=
    System.reaches_replay [.trySubmit .zeroed, .fetch, .complete 0 ⟨0, 1, 0, 0, 1⟩, .pollCqe,
      .trySubmit .zeroed] (by decide +kernel)
  obtain ⟨state, reached, progress⟩ := reaches
  exact ⟨state, reached, progress, live_commands_safe reached⟩

/-- The controller has fetched nothing when the first slot is written again. -/
theorem entry_overwritten_unfetched : ∃ state, queuePair.Reachable state ∧ ¬ Safe state := by
  have reaches : ∃ state, queuePair.Reachable state ∧
      (state.submitted.length = 65 ∧ state.fetched.length = 0) :=
    System.reaches_replay (replicate 65 (.trySubmit .zeroed)) (by decide +kernel)
  obtain ⟨state, reached, many, nothing⟩ := reaches
  refine ⟨state, reached, fun safe => ?_⟩
  have fetched := safe.inTime 0 (by omega)
  omega

inductive CompletionEvent where
  | post (comp : NvmeComp)
  | complete

/-- A controller that posts entries of any kind, at most 255 of them beyond the head, and
the calls of `complete` with what they return. -/
def completionQueue : System QueuePair CompletionEvent (Option (Nat × NvmeComp)) where
  start := .new
  step this
    | .post comp =>
      if comp.phaseTag = phase this.cq.data.length this.posted.length ∧
          this.posted.length + 1 < this.polled + this.cq.data.length then
        some (this.post comp, none)
      else
        none
    | .complete =>
      some (this.pollCqe, some (this.cq.complete.map fun done => (done.1.head, done.2)))

variable {history : List (Transition QueuePair CompletionEvent (Option (Nat × NvmeComp)))}

def returned (history : List (Transition QueuePair CompletionEvent (Option (Nat × NvmeComp)))) :
    List (Nat × NvmeComp) :=
  history.filterMap fun step => step.output.join

/-- What was returned is what was posted first, each entry with the slot of the next. -/
theorem returned_eq (run : completionQueue.Run (fun _ _ => True) history state) :
    Completions state ∧ returned history =
      (state.posted.take state.polled).mapIdx fun index comp => ((index + 1) % 256, comp) := by
  induction run with
  | start => exact ⟨orderly_new.completions, rfl⟩
  | @step earlier before event output after _ _ stepped ih =>
    obtain ⟨completions, same⟩ := ih
    rw [returned, filterMap_append, ← returned, same]
    cases event with
    | post comp =>
      obtain ⟨posts, ended⟩ := ite_none_right_eq_some.mp stepped
      cases ended
      refine ⟨completions.post posts.1 (lt_of_succ_lt posts.2), ?_⟩
      rw [post, take_append_of_le_length completions.behind]
      exact append_nil _
    | complete =>
      cases stepped
      rw [pollCqe]
      rcases completions.complete with ⟨_, nothing⟩ | ⟨comp, next, taken⟩
      · rw [nothing]
        exact ⟨completions, append_nil _⟩
      · obtain ⟨more, _⟩ := List.getElem?_eq_some_iff.mp next
        rw [taken]
        refine ⟨{ completions with head := rfl, lap := rfl, behind := more, near := ?_ }, ?_⟩
        · exact completions.near.trans (Nat.add_le_add_right (Nat.le_succ _) 256)
        · rw [take_add_one, next, toList_some, mapIdx_concat, length_take_of_le completions.behind]
          rfl

/-- The completion queue is first in, first out, and empty when nothing is pending. -/
theorem completion_queue_fifo (run : completionQueue.Run (fun _ _ => True) history state) :
    returned history = (state.posted.take state.polled).mapIdx
      (fun index comp => ((index + 1) % 256, comp)) ∧
    (state.cq.complete = none ↔ state.posted.length = state.polled) ∧
    state.cq.head = state.polled % 256 := by
  obtain ⟨completions, same⟩ := returned_eq run
  refine ⟨same, ?_, completions.head⟩
  rcases completions.complete with ⟨all, nothing⟩ | ⟨comp, next, taken⟩
  · exact iff_of_true nothing all
  · obtain ⟨more, _⟩ := List.getElem?_eq_some_iff.mp next
    exact iff_of_false (taken ▸ nofun) more.ne'

/-- A whole lap of entries is posted and polled, and of two more only the first is polled. -/
def secondLap : List CompletionEvent :=
  (replicate 256 [.post ⟨7, 0, 0, 0, 1⟩, .complete]).flatten ++
    [.post ⟨8, 0, 0, 0, 0⟩, .post ⟨9, 0, 0, 0, 0⟩, .complete]

theorem completion_queue_fifo_lap : ∃ history state,
    completionQueue.Run (fun _ _ => True) history state ∧ state.polled = 257 ∧
      state.cq.head = 1 ∧ state.cq.complete ≠ none := by
  have reaches : ∃ state, completionQueue.Reachable state ∧
      (state.posted.length = 258 ∧ state.polled = 257) :=
    System.reaches_replay secondLap (by decide +kernel)
  obtain ⟨state, ⟨history, run⟩, posted, polled⟩ := reaches
  obtain ⟨_, empty, head⟩ := completion_queue_fifo run
  refine ⟨_, _, run, polled, by rw [head, polled], ?_⟩
  rw [ne_eq, empty]
  omega

end EosBase.Nvme
