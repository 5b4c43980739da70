import Mathlib.Algebra.Order.Ring.Nat

/-!
# Loops

A loop of a modelled program that is not bounded by its syntax.  Its body either
goes around again or ends with a result; `loop` plays a number of rounds.
-/

namespace EosBase

universe u v

inductive Turn (State : Type u) (Result : Type v) where
  | again (state : State)
  | done (result : Result)

variable {State : Type u} {Result : Type v} {body : State → Turn State Result}
  {invariant : State → Prop}

/-- At most so many rounds; `none` when the loop has not ended by then. -/
def loop (body : State → Turn State Result) : Nat → State → Option Result
  | 0, _ => none
  | rounds + 1, state =>
    match body state with
    | .again next => loop body rounds next
    | .done result => some result

/-- A loop ends whose rounds decrease a measure, with the result of a round that
starts in the invariant. -/
theorem loop_ends {measure : State → Nat}
    (progress : ∀ state next, invariant state → body state = .again next →
      invariant next ∧ measure next < measure state) {rounds state}
    (initially : invariant state) (enough : measure state < rounds) :
    ∃ result last, invariant last ∧ body last = .done result ∧
      loop body rounds state = some result := by
  induction rounds generalizing state with
  | zero => exact (Nat.not_lt_zero _ enough).elim
  | succ rounds ih =>
    cases round : body state with
    | again next =>
      obtain ⟨preserved, decreased⟩ := progress state next initially round
      obtain ⟨result, last, holds, ended, played⟩ :=
        ih preserved (Nat.lt_of_lt_of_le decreased (Nat.lt_succ_iff.mp enough))
      refine ⟨result, last, holds, ended, ?_⟩
      rw [loop, round]
      exact played
    | done result =>
      refine ⟨result, state, initially, round, ?_⟩
      rw [loop, round]

/-- A loop never ends that goes around again from every state of an invariant. -/
theorem loop_never_ends
    (stays : ∀ state, invariant state → ∃ next, body state = .again next ∧ invariant next)
    {state} (initially : invariant state) (rounds : Nat) : loop body rounds state = none := by
  induction rounds generalizing state with
  | zero => rfl
  | succ rounds ih =>
    obtain ⟨next, round, preserved⟩ := stays state initially
    rw [loop, round]
    exact ih preserved

end EosBase
