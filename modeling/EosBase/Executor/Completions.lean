import EosBase.Lib.Transition
import Mathlib.Data.List.Nodup
import Mathlib.Logic.Function.Basic

/-!
# Completions of the driver executor

A `CqeFuture` submits its command when it is polled, or waits in `awaiting_submission`.
`react` hands each completion to the future that waits for it and wakes one future that waits
to submit.  Futures are numbered, and the queues, which hold the indices of tasks, show the
future that an index was put there for.
-/

namespace EosBase.Executor

open Function Option

inductive State (Sq Cq Cmd : Type) where
  | submitting (sqId : Sq)
  | completing (cqId : Cq) (cmdId : Cmd)

structure CqeFuture (Sq Cq Cmd Cqe : Type) where
  state : State Sq Cq Cmd
  comp : Option Cqe

inductive Answer (Cq Cmd : Type) where
  /-- The queue is full; a command that is in progress there. -/
  | full (other : Cq × Cmd)
  | accepted (cqId : Cq) (cmdId : Cmd)

structure Submissions (Sq Cq Cmd Cqe : Type) where
  futures : Nat → Option (CqeFuture Sq Cq Cmd Cqe)
  awaitingSubmission : Sq → List Nat
  awaitingCompletion : Cq × Cmd → Option Nat
  /-- With what is left of the drained queue, inside of `poll`. -/
  readyFutures : List Nat
  /-- The futures whose commands the hardware works on. -/
  inUse : Cq × Cmd → Option Nat
  /-- The queue that was full for a future, until that future is submitted. -/
  waiting : Nat → Option Sq
  /-- The completion that was posted for the command of a future. -/
  posted : Nat → Option Cqe
  /-- What `poll` of a future returned as ready. -/
  resolved : Nat → List Cqe

inductive Progress (Sq Cq Cmd Cqe : Type) where
  | create (future : Nat) (sqId : Sq)
  /-- A task is woken and polls the future that it is woken for. -/
  | run (answer : Answer Cq Cmd)
  /-- A task is woken and does not poll that future. -/
  | skip
  /-- A task polls a future that it is not woken for. -/
  | touch (future : Nat) (answer : Answer Cq Cmd)
  | drop (future : Nat)
  /-- The hardware posts a completion, and `react` finds it. -/
  | complete (id : Cq × Cmd) (cqe : Cqe)

variable {Sq Cq Cmd Cqe : Type}

section

variable [DecidableEq Sq] [DecidableEq Cq] [DecidableEq Cmd]

namespace Submissions

def poll (sqCq : Cq → Sq) (this : Submissions Sq Cq Cmd Cqe) (future : Nat)
    (answer : Answer Cq Cmd) : Option (Submissions Sq Cq Cmd Cqe) :=
  match this.futures future, answer with
  | none, _ => none
  | some ⟨.submitting sqId, _⟩, .full other =>
    if (this.inUse other).isSome ∧ sqCq other.1 = sqId then
      some { this with
        awaitingSubmission := update this.awaitingSubmission sqId
          (this.awaitingSubmission sqId ++ [future])
        waiting := update this.waiting future (some sqId) }
    else none
  | some ⟨.submitting sqId, comp⟩, .accepted cqId cmdId =>
    if this.inUse (cqId, cmdId) = none ∧ sqCq cqId = sqId then
      some { this with
        futures := update this.futures future (some ⟨.completing cqId cmdId, comp⟩)
        awaitingCompletion :=
          update this.awaitingCompletion (cqId, cmdId) (some future)
        inUse := update this.inUse (cqId, cmdId) (some future)
        waiting := update this.waiting future none }
    else none
  | some ⟨.completing _ _, some cqe⟩, _ =>
    some { this with
      futures := update this.futures future none
      resolved := update this.resolved future (this.resolved future ++ [cqe]) }
  | some ⟨.completing cqId cmdId, none⟩, _ =>
    some { this with
      awaitingCompletion :=
        update this.awaitingCompletion (cqId, cmdId) (some future) }

/-- The closure that `react` passes to `poll_cqes`. -/
def react (sqCq : Cq → Sq) (this : Submissions Sq Cq Cmd Cqe) (id : Cq × Cmd) (cqe : Cqe) :
    Submissions Sq Cq Cmd Cqe :=
  match this.awaitingCompletion id with
  | none => this
  | some future =>
    let queue := this.awaitingSubmission (sqCq id.1)
    { this with
      awaitingCompletion := update this.awaitingCompletion id none
      futures := update this.futures future
        ((this.futures future).map fun old => { old with comp := some cqe })
      awaitingSubmission := update this.awaitingSubmission (sqCq id.1) queue.tail
      readyFutures := this.readyFutures ++ future :: queue.head?.toList }

def step (sqCq : Cq → Sq) (this : Submissions Sq Cq Cmd Cqe) :
    Progress Sq Cq Cmd Cqe → Option (Submissions Sq Cq Cmd Cqe)
  | .create future sqId =>
    if (this.futures future).isNone ∧ (this.posted future).isNone then
      some { this with
        futures := update this.futures future (some ⟨.submitting sqId, none⟩) }
    else none
  | .run answer =>
    match this.readyFutures with
    | [] => none
    | future :: rest =>
      (this.poll sqCq future answer).map fun after => { after with readyFutures := rest }
  | .skip => some { this with readyFutures := this.readyFutures.tail }
  | .touch future answer => this.poll sqCq future answer
  | .drop future => some { this with
      futures := update this.futures future none
      waiting := update this.waiting future none }
  | .complete id cqe =>
    (this.inUse id).map fun future => react sqCq { this with
      inUse := update this.inUse id none
      posted := update this.posted future (some cqe) } id cqe

end Submissions

def submissions (sqCq : Cq → Sq) :
    System (Submissions Sq Cq Cmd Cqe) (Progress Sq Cq Cmd Cqe) Unit where
  start := ⟨fun _ => none, fun _ => [], fun _ => none, [], fun _ => none, fun _ => none,
    fun _ => none, fun _ => []⟩
  step this event := (this.step sqCq event).map (·, none)

end

/-- A task polls a future that waits to submit when `react` has woken it for that and not
otherwise, and drops no future. -/
def Prompt (this : Submissions Sq Cq Cmd Cqe) : Progress Sq Cq Cmd Cqe → Prop
  | .touch future _ => (this.waiting future).isNone
  | .skip => ∀ future ∈ this.readyFutures.head?, (this.futures future).isNone
  | .drop _ => False
  | _ => True

instance (this : Submissions Sq Cq Cmd Cqe) : DecidablePred (Prompt this)
  | .touch _ _ => inferInstanceAs (Decidable (_ = true))
  | .skip => inferInstanceAs (Decidable (∀ future ∈ this.readyFutures.head?, _))
  | .drop _ => isFalse nofun
  | .create _ _ | .run _ | .complete _ _ => isTrue trivial

def Submissions.Awake (sqCq : Cq → Sq) (this : Submissions Sq Cq Cmd Cqe) (sqId : Sq) : Prop :=
  (∃ id, (this.awaitingCompletion id).isSome ∧ sqCq id.1 = sqId) ∨
    ∃ future ∈ this.readyFutures, this.waiting future = some sqId

/-- A future for which a completion was posted has resolved to it, once, or is woken and holds
it; a future that found the queue full is queued or woken; a queue with waiting futures is
awake. -/
structure Delivered (sqCq : Cq → Sq) (this : Submissions Sq Cq Cmd Cqe) : Prop where
  own : ∀ future cqe, this.posted future = some cqe →
    this.resolved future = [cqe] ∧ this.futures future = none ∨
      this.resolved future = [] ∧ future ∈ this.readyFutures ∧
        ∃ cqId cmdId, this.futures future = some ⟨.completing cqId cmdId, some cqe⟩
  noOther : ∀ future, this.posted future = none → this.resolved future = []
  kept : ∀ future sqId, this.waiting future = some sqId →
    future ∈ this.awaitingSubmission sqId ∨ future ∈ this.readyFutures
  awake : ∀ sqId, this.awaitingSubmission sqId ≠ [] → this.Awake sqCq sqId

/-- What keeps the two maps, the queues and the futures in step. -/
structure Linked (sqCq : Cq → Sq) (this : Submissions Sq Cq Cmd Cqe) : Prop
    extends Delivered sqCq this where
  agree : this.inUse = this.awaitingCompletion
  submitted : ∀ future cqId cmdId, this.awaitingCompletion (cqId, cmdId) = some future ↔
    this.futures future = some ⟨.completing cqId cmdId, none⟩
  held : ∀ future state cqe, this.futures future = some ⟨state, some cqe⟩ →
    this.posted future = some cqe
  waiter : ∀ future sqId, this.waiting future = some sqId →
    this.futures future = some ⟨.submitting sqId, none⟩
  queued : ∀ sqId, ∀ future ∈ this.awaitingSubmission sqId,
    this.waiting future = some sqId ∧ future ∉ this.readyFutures
  once : ∀ sqId, (this.awaitingSubmission sqId).Nodup
  woken : ∀ future ∈ this.readyFutures,
    (this.waiting future).isSome ∨ (this.posted future).isSome
  wokenOnce : this.readyFutures.Nodup

variable {sqCq : Cq → Sq} {this after : Submissions Sq Cq Cmd Cqe} {future : Nat}
  {answer : Answer Cq Cmd} {sqId : Sq}

theorem Linked.asleep {state} (linked : Linked sqCq this)
    (found : this.futures future = some ⟨state, none⟩) (idle : this.waiting future = none) :
    this.posted future = none ∧ future ∉ this.readyFutures := by
  have unposted : this.posted future = none := by
    cases posted : this.posted future with
    | none => rfl
    | some cqe =>
      rcases linked.own future cqe posted with ⟨_, gone⟩ | ⟨_, _, _, _, done⟩
      · cases found.symm.trans gone
      · cases found.symm.trans done
  refine ⟨unposted, fun member => ?_⟩
  rcases linked.woken future member with waiting | posted
  · rw [idle] at waiting
    cases waiting
  · rw [unposted] at posted
    cases posted

theorem Linked.blank {comp} (linked : Linked sqCq this)
    (found : this.futures future = some ⟨.submitting sqId, comp⟩) : comp = none := by
  cases comp with
  | none => rfl
  | some cqe =>
    rcases linked.own future cqe (linked.held _ _ _ found) with ⟨_, gone⟩ | ⟨_, _, _, _, done⟩
    · cases found.symm.trans gone
    · cases found.symm.trans done

theorem Submissions.Awake.mono (awake : this.Awake sqCq sqId)
    (grown : ∀ id, sqCq id.1 = sqId → (this.awaitingCompletion id).isSome →
      (after.awaitingCompletion id).isSome)
    (carried : ∀ other ∈ this.readyFutures, this.waiting other = some sqId →
      other ∈ after.readyFutures ∧ after.waiting other = some sqId) : after.Awake sqCq sqId := by
  rcases awake with ⟨id, pending, same⟩ | ⟨other, member, waiting⟩
  · exact .inl ⟨id, grown id same pending, same⟩
  · exact .inr ⟨other, carried other member waiting⟩

variable [DecidableEq Sq] [DecidableEq Cq] [DecidableEq Cmd]

theorem Submissions.poll_readyFutures (polled : this.poll sqCq future answer = some after) :
    after.readyFutures = this.readyFutures := by
  simp only [Submissions.poll] at polled
  grind

section

variable (linked : Linked sqCq this)

include linked

theorem Linked.poll (polled : this.poll sqCq future answer = some after) {rest}
    (others : ∀ other, other ≠ future → (other ∈ rest ↔ other ∈ this.readyFutures))
    (once : rest.Nodup) (off : ∀ sqId, future ∉ this.awaitingSubmission sqId)
    (free : future ∈ rest → future ∈ this.readyFutures ∧ this.waiting future = none) :
    Linked sqCq { after with readyFutures := rest } := by
  have asleep : ∀ state, this.futures future = some ⟨state, none⟩ → future ∉ rest := by
    intro state found member
    exact (linked.asleep found (free member).2).2 (free member).1
  have ⟨⟨own, noOther, kept, awake⟩, agree, submitted, held, waiter, queued, nodup, woken, _⟩ :=
    linked
  simp only [Submissions.poll] at polled
  split at polled
  · cases polled
  next sqId comp other found =>
    split at polled
    next full =>
      cases polled
      cases linked.blank found
      rw [agree] at full
      -- That the queue is awake is the argument; the rest is about this future alone.
      refine ⟨⟨?_, ?_, ?_, ?_⟩, ?_, ?_, ?_, ?_, ?_, ?_, ?_, ?_⟩
      case refine_4 =>
        intro queue nonempty
        by_cases same : queue = sqId
        · exact .inl ⟨other, full.1, same ▸ full.2⟩
        · apply (awake queue _).mono <;> grind [update_apply]
      all_goals grind [update_apply]
    · cases polled
  next sqId comp cqId cmdId found =>
    split at polled
    next fresh =>
      cases polled
      cases linked.blank found
      refine ⟨⟨?_, ?_, ?_, ?_⟩, ?_, ?_, ?_, ?_, ?_, ?_, ?_, ?_⟩
      case refine_4 =>
        intro queue nonempty
        by_cases same : queue = sqId
        · exact .inl ⟨(cqId, cmdId), by simp, same ▸ fresh.2⟩
        · apply (awake queue nonempty).mono <;> grind [update_apply]
      all_goals grind [update_apply]
    · cases polled
  next cqId cmdId cqe found =>
    cases polled
    refine ⟨⟨?_, ?_, ?_, ?_⟩, ?_, ?_, ?_, ?_, ?_, ?_, ?_, ?_⟩
    case refine_4 =>
      intro queue nonempty
      apply (awake queue nonempty).mono <;> grind
    all_goals grind [update_apply]
  next cqId cmdId found =>
    cases polled
    refine ⟨⟨?_, ?_, ?_, ?_⟩, ?_, ?_, ?_, ?_, ?_, ?_, ?_, ?_⟩
    case refine_4 =>
      intro queue nonempty
      apply (awake queue nonempty).mono <;> grind [update_apply]
    all_goals grind [update_apply]

theorem Linked.complete {id cqe}
    (stepped : this.step sqCq (.complete id cqe) = some after) : Linked sqCq after := by
  obtain ⟨future, used, rfl⟩ := map_eq_some_iff.mp stepped
  have awaited := congrFun linked.agree id ▸ used
  have found := (linked.submitted future id.1 id.2).mp awaited
  have idle : this.waiting future = none := by
    cases waiting : this.waiting future with
    | none => rfl
    | some sqId => cases found.symm.trans (linked.waiter future sqId waiting)
  have asleep := linked.asleep found idle
  obtain ⟨⟨own, noOther, kept, awake⟩, agree, submitted, held, waiter, queued, nodup, woken, _⟩ :=
    linked
  simp only [Submissions.react, awaited, found]
  refine ⟨⟨?_, ?_, ?_, ?_⟩, ?_, ?_, ?_, ?_, ?_, ?_, ?_, ?_⟩
  case refine_4 =>
    intro sqId nonempty
    by_cases same : sqId = sqCq id.1
    · -- The first future of the queue is woken in place of the command.
      subst same
      cases queue : this.awaitingSubmission (sqCq id.1) with
      | nil => simp [queue] at nonempty
      | cons first rest => exact .inr ⟨first, by simp, (queued _ first (by simp [queue])).1⟩
    · apply (awake sqId _).mono <;> grind [update_apply]
  all_goals
    cases queue : this.awaitingSubmission (sqCq id.1) <;> grind [update_apply]

theorem Linked.step {event}
    (prompt : Prompt this event) (stepped : this.step sqCq event = some after) :
    Linked sqCq after := by
  cases event with
  | create future sqId =>
    simp only [Submissions.step] at stepped
    split at stepped
    next fresh =>
      cases stepped
      obtain ⟨⟨own, noOther, kept, awake⟩, _, submitted, held, waiter, queued, _, _, _⟩ := linked
      refine ⟨⟨?_, ?_, ?_, awake⟩, ?_, ?_, ?_, ?_, queued, ?_, ?_, ?_⟩
      all_goals grind [update_apply]
    · cases stepped
  | run answer =>
    simp only [Submissions.step] at stepped
    split at stepped
    · cases stepped
    next future rest ready =>
      obtain ⟨polled, done, rfl⟩ := map_eq_some_iff.mp stepped
      have once := linked.wokenOnce
      rw [ready, List.nodup_cons] at once
      refine linked.poll done ?_ once.2 ?_ fun member => absurd member once.1
      · intro other different
        rw [ready, List.mem_cons, or_iff_right different]
      · intro sqId member
        exact (linked.queued sqId future member).2 (ready ▸ List.mem_cons_self ..)
  | skip =>
    cases stepped
    cases ready : this.readyFutures with
    | nil =>
      rw [List.tail_nil, ← ready]
      exact linked
    | cons future rest =>
      have gone := isNone_iff_eq_none.mp (prompt future (by rw [ready]; rfl))
      obtain ⟨⟨own, noOther, kept, awake⟩, agree, submitted, held, waiter, queued, nodup, woken,
        once⟩ := linked
      refine ⟨⟨?_, noOther, ?_, ?_⟩, agree, submitted, held, waiter, ?_, nodup, ?_, ?_⟩
      case refine_3 =>
        intro sqId nonempty
        apply (awake sqId nonempty).mono <;> grind
      all_goals grind
  | touch future answer =>
    have idle := isNone_iff_eq_none.mp prompt
    have polled := linked.poll stepped (fun _ _ => Iff.rfl) linked.wokenOnce ?_
      fun member => ⟨member, idle⟩
    · rw [← Submissions.poll_readyFutures stepped] at polled
      exact polled
    · intro sqId member
      cases idle.symm.trans (linked.queued sqId future member).1
  | drop future => exact prompt.elim
  | complete id cqe => exact linked.complete stepped

end

/-- In every state that prompt tasks reach, each completion has gone to the future that
submitted its command, and no future that waits to submit is forgotten. -/
theorem completions_delivered (reached : (submissions sqCq).ReachableWhile Prompt this) :
    Delivered sqCq this := by
  refine (reached.invariant (motive := Linked sqCq) ?_ ?_).toDelivered
  · constructor
    constructor
    all_goals simp [submissions]
  · intro before event after output _ linked prompt stepped
    obtain ⟨_, done, same⟩ := map_eq_some_iff.mp stepped
    cases same
    exact linked.step prompt done

/-- One command goes through while another waits for the queue. -/
theorem completions_delivered_pair : ∃ state : Submissions Unit Unit Unit Nat,
      (submissions id).ReachableWhile Prompt state ∧
      (state.resolved 0 = [7] ∧ state.awaitingCompletion ((), ()) = some 1) ∧
      Delivered id state := by
  obtain ⟨state, reached, shown⟩ : ∃ state : Submissions Unit Unit Unit Nat,
      (submissions id).ReachableWhile Prompt state ∧
        state.resolved 0 = [7] ∧ state.awaitingCompletion ((), ()) = some 1 :=
    System.reaches_replay [.create 0 (), .touch 0 (.accepted () ()), .create 1 (),
      .touch 1 (.full ((), ())), .complete ((), ()) 7, .run (.full ((), ())),
      .run (.accepted () ())] (by decide +kernel)
  exact ⟨state, reached, shown, completions_delivered reached⟩

/-- Futures 1 and 2 wait for a queue of one place.  A task that awaits 0 and 2 together is
woken for 0, and 2 takes the place although 1 was woken for it.  Its index is left behind, so
that the next completion wakes 2 in place of 1, which then waits forever. -/
theorem waiting_future_forgotten : ∃ state : Submissions Unit Unit Unit Nat,
      (submissions id).Reachable state ∧ ¬ Delivered id state := by
  obtain ⟨state, reached, waits, idle, none⟩ : ∃ state : Submissions Unit Unit Unit Nat,
      (submissions id).Reachable state ∧ state.awaitingSubmission () = [1] ∧
        state.awaitingCompletion ((), ()) = none ∧ state.readyFutures = [] :=
    System.reaches_replay [.create 0 (), .touch 0 (.accepted () ()), .create 1 (),
      .touch 1 (.full ((), ())), .create 2 (), .touch 2 (.full ((), ())),
      .complete ((), ()) 7, .run (.full ((), ())), .touch 2 (.accepted () ()),
      .run (.full ((), ())), .complete ((), ()) 8, .run (.full ((), ())), .skip]
      (by decide +kernel)
  refine ⟨state, reached, fun delivered => ?_⟩
  rcases delivered.awake () (by rw [waits]; nofun) with ⟨_, pending, _⟩ | ⟨future, woken, _⟩
  · rw [idle] at pending
    cases pending
  · rw [none] at woken
    cases woken

end EosBase.Executor
