import EosBase.Lib.Table
import EosBase.Lib.Transition

/-!
# Wake-ups of the driver executor

`LocalExecutor::poll` drains `ready_futures` and polls the task at each index.  Both that
queue and the slab of tasks stay borrowed while a task runs.  Tasks are numbered as they
are spawned, so that a wake shows the task that it was issued for.
-/

namespace EosBase.Executor

open List Table

/-- A waker holds an index only; the task is the one that it was made for. -/
structure Wake where
  futureIdx : Nat
  task : Nat
  deriving DecidableEq

structure LocalExecutor where
  futures : Table Nat Nat
  spawned : Nat
  readyFutures : List Wake
  /-- What is left of the drained queue, inside of `poll`. -/
  draining : Option (List Wake)
  isPolling : Bool
  /-- The wakers that were handed to tasks. -/
  wakers : List Wake

/-- What changes the queue: `spawn` with the vacant index that the slab picks, or `block_on`,
which puts it at the front, and a waker. -/
inductive Call where
  | spawn (futureIdx : Nat) (front : Bool)
  | wake (waker : Wake)
  deriving DecidableEq

inductive Outcome where
  | pending | ready | panicked
  deriving DecidableEq

inductive Event where
  /-- Outside of `poll`, by `react` or other code. -/
  | call (call : Call)
  | poll
  /-- One iteration of the loop of `poll`: the task makes some calls and returns. -/
  | next (calls : List Call) (outcome : Outcome)
  /-- The loop ends. -/
  | done

inductive Output where
  /-- `poll` itself panicked. -/
  | broken
  /-- A task was polled for a wake of some task, and what became of its calls. -/
  | polled (wokenFor task : Nat) (answers : List Bool)
  deriving DecidableEq

namespace LocalExecutor

/-- There is no result when a cell is borrowed: `drain` holds `ready_futures` as long as the
loop of `poll` runs, and `inTask` is whether an iteration of it holds `futures`. -/
def call (this : LocalExecutor) (inTask : Bool) : Call → Option LocalExecutor
  | .spawn futureIdx front =>
    if inTask || this.draining.isSome then none
    else
      let waker := ⟨futureIdx, this.spawned⟩
      some { this with
        futures := this.futures.insert futureIdx this.spawned
        spawned := this.spawned + 1
        readyFutures :=
          if front then waker :: this.readyFutures else this.readyFutures ++ [waker] }
  | .wake waker =>
    if this.draining.isSome then none
    else some { this with readyFutures := this.readyFutures ++ [waker] }

/-- The calls of a task, and which of them succeed. -/
def calls (this : LocalExecutor) : List Call → LocalExecutor × List Bool
  | [] => (this, [])
  | call :: rest =>
    let done := this.call true call
    let (after, answers) := (done.getD this).calls rest
    (after, done.isSome :: answers)

def next (this : LocalExecutor) (waker : Wake) (rest : List Wake) (calls : List Call)
    (outcome : Outcome) : LocalExecutor × Option Output :=
  match this.futures.get? waker.futureIdx with
  -- The panic of `futures[future_idx]` is caught, that of `futures.remove` is not.
  | none => ({ this with draining := none }, some .broken)
  | some task =>
    let (this, answers) := this.calls calls
    ({ this with
      futures := if outcome = .pending then this.futures
        else this.futures.erase waker.futureIdx
      draining := some rest
      wakers := ⟨waker.futureIdx, task⟩ :: this.wakers },
      some (.polled waker.task task answers))

/-- Tasks have the wakers that they were handed, and the slab picks a vacant index. -/
def possible (this : LocalExecutor) : Call → Bool
  | .spawn futureIdx _ => this.futures.get? futureIdx = none
  | .wake waker => waker ∈ this.wakers

def step (this : LocalExecutor) : Event → Option (LocalExecutor × Option Output)
  | .call call =>
    if this.draining = none ∧ this.possible call then (this.call false call).map (·, none) else none
  | .poll =>
    if this.draining = none then
      if this.isPolling then some (this, some .broken)
      else
        some ({ this with
          isPolling := true, draining := some this.readyFutures, readyFutures := [] }, none)
    else none
  | .next calls outcome =>
    match this.draining with
    | some (waker :: rest) => some (this.next waker rest calls outcome)
    | _ => none
  | .done =>
    if this.draining = some [] then
      some ({ this with draining := none, isPolling := false }, none)
    else none

end LocalExecutor

def executor : System LocalExecutor Event Output where
  start := ⟨.empty, 0, [], none, false, []⟩
  step := LocalExecutor.step

/-- `poll` did not panic, the task that was polled is the one that was woken, and its calls
succeeded. -/
def Output.Fine : Output → Prop
  | .broken => False
  | .polled wokenFor task answers => wokenFor = task ∧ ∀ answer ∈ answers, answer = true

instance : DecidablePred Output.Fine
  | .broken => inferInstanceAs (Decidable False)
  | .polled _ _ _ => inferInstanceAs (Decidable (_ ∧ _))

def lastWake : List Wake → Bool
  | [] => true
  | waker :: rest => waker ∉ rest

/-- No task calls the executor while it is polled, or ends while another wake of it is queued,
and a task is woken only while it lives. -/
def Calm (this : LocalExecutor) : Event → Prop
  | .next calls outcome => calls = [] ∧ (outcome = .pending ∨ this.draining.all lastWake)
  | .call (.wake waker) => this.futures.get? waker.futureIdx = some waker.task
  | _ => True

instance (this : LocalExecutor) : DecidablePred (Calm this)
  | .next _ _ => inferInstanceAs (Decidable (_ ∧ _))
  | .call (.wake _) => inferInstanceAs (Decidable (_ = _))
  | .call (.spawn _ _) | .poll | .done => isTrue trivial

def LocalExecutor.queue (this : LocalExecutor) : List Wake :=
  this.readyFutures ++ this.draining.getD []

structure Sound (this : LocalExecutor) : Prop where
  live : ∀ waker ∈ this.queue, this.futures.get? waker.futureIdx = some waker.task
  apart : this.draining = none ∨ this.readyFutures = []
  idle : this.draining = none → this.isPolling = false

variable {this : LocalExecutor}

/-- Outside of `poll` a wake of a living task is queued, and no other task goes. -/
theorem Sound.push (sound : Sound this) (idle : this.draining = none) {futures spawned ready}
    (waker : Wake) (queued : ∀ other ∈ ready, other = waker ∨ other ∈ this.readyFutures)
    (found : futures.get? waker.futureIdx = some waker.task)
    (others : ∀ other ∈ this.readyFutures,
      futures.get? other.futureIdx = this.futures.get? other.futureIdx) :
    Sound { this with futures := futures, spawned := spawned, readyFutures := ready } := by
  refine ⟨?_, .inl idle, fun _ => sound.idle idle⟩
  rw [LocalExecutor.queue, idle, Option.getD_none, append_nil]
  intro other member
  rcases queued other member with rfl | old
  · exact found
  · rw [others other old]
    exact sound.live other (mem_append_left _ old)

theorem Sound.call {call after} (sound : Sound this) (idle : this.draining = none)
    (possible : this.possible call) (calm : Calm this (.call call))
    (called : this.call false call = some after) : Sound after := by
  cases call with
  | spawn futureIdx front =>
    rw [LocalExecutor.call, if_neg (by simp [idle])] at called
    cases called
    apply sound.push idle ⟨futureIdx, this.spawned⟩ ?_ (get?_insert_self _ _ _)
    · intro other member
      refine get?_insert_of_ne _ ?_
      rintro rfl
      cases (of_decide_eq_true possible).symm.trans (sound.live other (mem_append_left _ member))
    · intro other
      cases front <;> simp [or_comm]
  | wake waker =>
    rw [LocalExecutor.call, if_neg (by simp [idle])] at called
    cases called
    refine sound.push idle waker ?_ calm fun _ _ => rfl
    simp [or_comm]

theorem Sound.next {waker rest calls outcome} (sound : Sound this)
    (draining : this.draining = some (waker :: rest)) (calm : Calm this (.next calls outcome)) :
    Sound (this.next waker rest calls outcome).1 ∧
      ∀ shown ∈ (this.next waker rest calls outcome).2, shown.Fine := by
  have none := sound.apart.resolve_left (by simp [draining])
  have live := sound.live
  rw [LocalExecutor.queue, none, draining, nil_append, Option.getD_some] at live
  obtain ⟨rfl, last⟩ := calm
  rw [LocalExecutor.next, live waker mem_cons_self]
  refine ⟨⟨?_, .inr none, nofun⟩, ?_⟩
  · intro other member
    have left : other ∈ rest := by
      simpa [LocalExecutor.queue, LocalExecutor.calls, none] using member
    have found := live other (mem_cons_of_mem _ left)
    dsimp only [LocalExecutor.calls]
    split
    · exact found
    next ended =>
      rw [get?_erase, if_neg, found]
      intro same
      rw [draining] at last
      apply of_decide_eq_true (last.resolve_left ended)
      obtain ⟨index, task⟩ := waker
      cases same
      cases (live _ mem_cons_self).symm.trans found
      exact left
  · rintro _ ⟨⟩
    exact ⟨rfl, nofun⟩

theorem Sound.step {event} (sound : Sound this) (calm : Calm this event) :
    Ends (fun stepped => Sound stepped.1 ∧ ∀ shown ∈ stepped.2, shown.Fine) (this.step event) := by
  cases event with
  | call call =>
    simp only [LocalExecutor.step]
    split
    next allowed =>
      cases called : this.call false call with
      | none => trivial
      | some after => exact ⟨sound.call allowed.1 allowed.2 calm called, nofun⟩
    · trivial
  | poll =>
    simp only [LocalExecutor.step]
    split
    next idle =>
      have live := sound.live
      rw [LocalExecutor.queue, idle, Option.getD_none, append_nil] at live
      rw [sound.idle idle]
      exact ⟨⟨live, .inr rfl, nofun⟩, nofun⟩
    · trivial
  | next calls outcome =>
    simp only [LocalExecutor.step]
    split
    next draining => exact sound.next draining calm
    · trivial
  | done =>
    simp only [LocalExecutor.step]
    split
    next ended =>
      have live := sound.live
      rw [LocalExecutor.queue, ended] at live
      exact ⟨⟨live, .inl rfl, fun _ => rfl⟩, nofun⟩
    · trivial

theorem sound_reachable {state} (reached : executor.ReachableWhile Calm state) : Sound state := by
  apply reached.invariant
  · exact ⟨nofun, .inl rfl, fun _ => rfl⟩
  · intro before event after output _ sound calm stepped
    exact ((sound.step calm).of_eq stepped).1

/-- In a calm run every wake polls the task that it was issued for, and `poll` does not
panic. -/
theorem wakeups_safe {history : List (Transition LocalExecutor Event Output)}
    {state : LocalExecutor} (run : executor.Run Calm history state) :
    ∀ transition ∈ history, ∀ output ∈ transition.output, output.Fine := by
  intro transition member
  obtain ⟨earlier, later, same⟩ := append_of_mem member
  obtain ⟨path, stepped, calm, -⟩ := run.split same
  exact (((sound_reachable ⟨_, path⟩).step calm).of_eq stepped).2

def wokenTwice : List Event :=
  [.call (.spawn 0 false), .poll, .next [] .pending, .done, .call (.wake ⟨0, 0⟩),
    .call (.wake ⟨0, 0⟩), .poll, .next [] .pending, .next [] .ready, .done]

theorem wakeups_safe_again : ∃ history state, executor.Run Calm history state ∧
      ∀ transition ∈ history, ∀ output ∈ transition.output, output.Fine := by
  have run := executor.run_replay Calm wokenTwice (by decide +kernel)
  exact ⟨_, _, run, wakeups_safe run⟩

/-- A task is woken twice and finishes when it is polled for the first wake, so that `poll`
panics on the second one; and a task that spawns another while it is polled panics. -/
theorem second_wake_panics : (∃ state, executor.Reachable state ∧
      (executor.step state (.next [] .ready)).bind Prod.snd = some .broken) ∧
    ∃ state, executor.Reachable state ∧
      (executor.step state (.next [.spawn 1 false] .panicked)).bind Prod.snd =
        some (.polled 0 0 [false]) := by
  constructor
  · exact System.reaches_replay (wokenTwice.take 7 ++ [.next [] .ready]) (by decide +kernel)
  · exact System.reaches_replay (wokenTwice.take 2) (by decide +kernel)

end EosBase.Executor
