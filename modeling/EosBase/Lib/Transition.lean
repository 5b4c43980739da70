import EosBase.Lib.Fallible

/-!
# Runs of an event-driven program

A program that reacts to one event at a time is a start state and a step
function.  A step may emit an output, and has no successor when the program
stops there.  `Run` records the whole history, so that a property may speak
about every state a run visits and about everything it emitted.
-/

namespace EosBase

open List

universe u v w

/-- A deterministic reaction to each event; `none` ends the run. -/
structure System (State : Type u) (Event : Type v) (Output : Type w) where
  start : State
  step : State → Event → Option (State × Option Output)

variable {State : Type u} {after : State}

section Replies

variable {Reply : Type w}

/-- The step of a handler that answers; there is none after a panic. -/
def replied (done : Option (State × Reply)) : Option (State × Option Reply) :=
  done.map fun done => (done.1, some done.2)

variable {done : Option (State × Reply)} {output : Option Reply}

theorem of_replied (stepped : replied done = some (after, output)) :
    ∃ reply, output = some reply ∧ done = some (after, reply) := by
  obtain ⟨⟨state, reply⟩, ended, same⟩ := Option.map_eq_some_iff.mp stepped
  cases same
  exact ⟨reply, rfl, ended⟩

theorem Ends.of_replied {effect : Option Reply → State → Prop}
    (ends : Ends (fun done => effect (some done.2) done.1) done)
    (stepped : replied done = some (after, output)) : effect output after := by
  obtain ⟨reply, rfl, ended⟩ := EosBase.of_replied stepped
  exact ends.of_eq ended

end Replies

structure Transition (State : Type u) (Event : Type v) (Output : Type w) where
  before : State
  event : Event
  output : Option Output
  after : State

namespace System

variable {Event : Type v} {Output : Type w}

/-- The histories that lead from a state by steps that all meet `allowed`. -/
inductive Path (system : System State Event Output) (allowed : State → Event → Prop)
    (origin : State) : List (Transition State Event Output) → State → Prop where
  | start : Path system allowed origin [] origin
  | step {history state event output next} :
      Path system allowed origin history state →
      allowed state event →
      system.step state event = some (next, output) →
      Path system allowed origin (history ++ [⟨state, event, output, next⟩]) next

abbrev Run (system : System State Event Output) (allowed : State → Event → Prop) :
    List (Transition State Event Output) → State → Prop :=
  system.Path allowed system.start

def ReachableWhile (system : System State Event Output) (allowed : State → Event → Prop)
    (state : State) : Prop :=
  ∃ history, system.Run allowed history state

def Reachable (system : System State Event Output) (state : State) : Prop :=
  system.ReachableWhile (fun _ _ => True) state

variable {system : System State Event Output} {allowed : State → Event → Prop} {state : State}
  {history : List (Transition State Event Output)} {origin : State}

/-- The invariant rule: what holds at the start and survives every allowed step
holds in every state reached. -/
theorem ReachableWhile.invariant {motive : State → Prop}
    (reached : system.ReachableWhile allowed state) (initially : motive system.start)
    (preserved : ∀ before event after output, system.ReachableWhile allowed before →
      motive before → allowed before event → system.step before event = some (after, output) →
      motive after) : motive state := by
  rcases reached with ⟨history, run⟩
  induction run with
  | start => exact initially
  | step earlier permitted stepped ih =>
    exact preserved _ _ _ _ ⟨_, earlier⟩ ih permitted stepped

/-- Fewer steps are allowed, fewer states are reached. -/
theorem Path.mono {weaker} (path : system.Path allowed origin history state)
    (implied : ∀ before event, allowed before event → weaker before event) :
    system.Path weaker origin history state := by
  induction path with
  | start => exact .start
  | step _ permitted stepped ih =>
    exact .step ih (implied _ _ permitted) stepped

theorem ReachableWhile.reachable
    (reached : system.ReachableWhile allowed state) : system.Reachable state := by
  rcases reached with ⟨history, run⟩
  exact ⟨history, run.mono fun _ _ _ => trivial⟩

theorem ReachableWhile.step {before event output}
    (reached : system.ReachableWhile allowed before) (permitted : allowed before event)
    (stepped : system.step before event = some (after, output)) :
    system.ReachableWhile allowed after := by
  rcases reached with ⟨history, run⟩
  exact ⟨_, run.step permitted stepped⟩

/-- What a path reaches from a reachable state is reachable. -/
theorem ReachableWhile.path (reached : system.ReachableWhile allowed origin)
    (path : system.Path allowed origin history state) : system.ReachableWhile allowed state := by
  induction path with
  | start => exact reached
  | step _ permitted stepped ih =>
    exact ih.step permitted stepped

/-- Paths that meet are one path. -/
theorem Path.append {middle earlier later} (first : system.Path allowed origin earlier middle)
    (second : system.Path allowed middle later state) :
    system.Path allowed origin (earlier ++ later) state := by
  induction second with
  | start =>
    rw [append_nil]
    exact first
  | step _ permitted stepped ih =>
    rw [← append_assoc]
    exact ih.step permitted stepped

section

variable (path : system.Path allowed origin history state)

include path

/-- The parts of a path before and after one of its steps, and that step. -/
theorem Path.split :
    ∀ {earlier later : List (Transition State Event Output)}
      {transition : Transition State Event Output},
      history = earlier ++ transition :: later →
      system.Path allowed origin earlier transition.before ∧
        system.step transition.before transition.event =
          some (transition.after, transition.output) ∧
        allowed transition.before transition.event ∧
        system.Path allowed transition.after later state := by
  induction path with
  | start =>
    intro earlier later transition same
    exact absurd same.symm (append_ne_nil_of_right_ne_nil _ (cons_ne_nil _ _))
  | step taken permitted stepped ih =>
    intro earlier later transition same
    rcases eq_nil_or_concat later with rfl | ⟨front, last, rfl⟩
    · obtain ⟨rfl, equal⟩ := append_inj' same rfl
      cases equal
      exact ⟨taken, stepped, permitted, .start⟩
    · rw [concat_eq_append] at same ⊢
      rw [← cons_append, ← append_assoc] at same
      obtain ⟨front_eq, equal⟩ := append_inj' same rfl
      cases equal
      obtain ⟨before, first, allows, after⟩ := ih front_eq
      exact ⟨before, first, allows, after.step permitted stepped⟩

/-- Every step of a path left a state that the path had reached. -/
theorem Path.taken (reached : system.ReachableWhile allowed origin)
    (transition : Transition State Event Output) (member : transition ∈ history) :
    system.ReachableWhile allowed transition.before ∧
      system.step transition.before transition.event =
        some (transition.after, transition.output) := by
  obtain ⟨earlier, later, same⟩ := append_of_mem member
  obtain ⟨before, stepped, -⟩ := path.split same
  exact ⟨reached.path before, stepped⟩

end

/-- Play a list of events from a state.  There is no result when a step has no
successor or is not allowed. -/
def replay (system : System State Event Output) (allowed : State → Event → Prop)
    [∀ state event, Decidable (allowed state event)] :
    State → List Event → Option (List (Transition State Event Output) × State)
  | state, [] => some ([], state)
  | state, event :: events =>
    if allowed state event then
      match system.step state event with
      | some (next, output) =>
        (replay system allowed next events).map fun played =>
          (⟨state, event, output, next⟩ :: played.1, played.2)
      | none => none
    else
      none

theorem replay_path [∀ state event, Decidable (allowed state event)] {final earlier events}
    (path : system.Path allowed origin earlier state)
    (played : system.replay allowed state events = some (history, final)) :
    system.Path allowed origin (earlier ++ history) final := by
  induction events generalizing state earlier history with
  | nil =>
    cases played
    rw [append_nil]
    exact path
  | cons event events ih =>
    simp only [replay] at played
    split at played
    next permitted =>
      split at played
      next next output stepped =>
        obtain ⟨⟨rest, reached⟩, later, equality⟩ := Option.map_eq_some_iff.mp played
        cases equality
        have extended := ih (path.step permitted stepped) later
        rwa [append_assoc] at extended
      · cases played
    · cases played

section

variable (system : System State Event Output) (allowed : State → Event → Prop)
  [∀ state event, Decidable (allowed state event)] (events : List Event)

/-- The history of a played list of events is a path. -/
theorem path_replay (origin : State)
    (played : (system.replay allowed origin events).isSome = true) :
    system.Path allowed origin ((system.replay allowed origin events).get played).1
      ((system.replay allowed origin events).get played).2 :=
  replay_path .start (Option.some_get played).symm

section

variable (played : (system.replay allowed system.start events).isSome = true)

include played

theorem run_replay :
    system.Run allowed ((system.replay allowed system.start events).get played).1
      ((system.replay allowed system.start events).get played).2 :=
  system.path_replay allowed events system.start played

theorem reachableWhile_replay :
    system.ReachableWhile allowed
      ((system.replay allowed system.start events).get played).2 :=
  ⟨_, system.run_replay allowed events played⟩

end

theorem reachable_replay
    (played : (system.replay (fun _ _ => True) system.start events).isSome = true) :
    system.Reachable ((system.replay (fun _ _ => True) system.start events).get played).2 :=
  system.reachableWhile_replay _ events played

end

/-- A list of events leads to a state with a property that can be checked there. -/
theorem reaches_replay [∀ state event, Decidable (allowed state event)] {property}
    [DecidablePred property] (events : List Event)
    (played : ((system.replay allowed system.start events).any fun played =>
      decide (property played.2)) = true) :
    ∃ state, system.ReachableWhile allowed state ∧ property state := by
  cases ended : system.replay allowed system.start events with
  | none =>
    rw [ended] at played
    cases played
  | some reached =>
    rw [ended] at played
    exact ⟨reached.2, ⟨_, replay_path .start ended⟩, of_decide_eq_true played⟩

/-- Each event of a list is good in the state in which it comes, up to a step
without a successor. -/
def Along (system : System State Event Output) (good : State → Event → Prop) :
    State → List Event → Prop
  | _, [] => True
  | state, event :: events =>
    good state event ∧
      match system.step state event with
      | some (next, _) => Along system good next events
      | none => True

instance decidableAlong (system : System State Event Output) (good : State → Event → Prop)
    [∀ state event, Decidable (good state event)] :
    ∀ (state : State) (events : List Event), Decidable (system.Along good state events)
  | _, [] => isTrue trivial
  | state, event :: events =>
    match stepped : system.step state event with
    | some (next, _) =>
      have := decidableAlong system good next events
      decidable_of_iff (good state event ∧ system.Along good next events)
        (by simp only [Along, stepped])
    | none => decidable_of_iff (good state event) (by simp only [Along, stepped, and_true])

/-- Two properties of steps that agree wherever an invariant holds agree along every
list of events, when each step with the property keeps the invariant. -/
theorem along_iff {events good fair} {invariant : State → Prop}
    (agree : ∀ state event, invariant state → allowed state event →
      (good state event ↔ fair state event))
    (preserved : ∀ state event next output, invariant state → allowed state event →
      fair state event → system.step state event = some (next, output) → invariant next)
    (initially : invariant state) (permitted : system.Along allowed state events) :
    system.Along good state events ↔ system.Along fair state events := by
  induction events generalizing state with
  | nil => exact Iff.rfl
  | cons event events ih =>
    have here := agree state event initially permitted.1
    cases stepped : system.step state event with
    | none => simp only [Along, stepped, here]
    | some reached =>
      obtain ⟨next, output⟩ := reached
      have later := permitted.2
      simp only [stepped] at later
      simp only [Along, stepped, here]
      apply and_congr_right
      intro isFair
      apply ih _ later
      exact preserved state event next output initially permitted.1 isFair stepped

end System

end EosBase
