import Mathlib.Algebra.Order.Ring.Nat

/-!
# Computations that may fail

Taking a successful computation apart into the steps that it is made of.
-/

namespace EosBase

universe u v w

variable {Failure : Type u} {Value Result : Type v} {first : Except Failure Value} {result : Result}
  {next : Value → Result}

theorem ok_of_bind {next} (done : (first >>= next) = .ok result) :
    ∃ value, first = .ok value ∧ next value = .ok result := by
  cases first with
  | error failure => cases done
  | ok value => exact ⟨value, rfl, done⟩

theorem ok_of_map (done : first.map next = .ok result) :
    ∃ value, first = .ok value ∧ next value = result := by
  cases first with
  | error failure => cases done
  | ok value =>
    cases done
    exact ⟨value, rfl, rfl⟩

/-- The result of a computation is as asked for, if there is one. -/
def Ends (post : Result → Prop) : Option Result → Prop
  | none => True
  | some result => post result

namespace Ends

variable {post : Result → Prop}

theorem of_eq {done} (ends : Ends post done) (ended : done = some result) : post result := by
  subst ended
  exact ends

theorem intro {done} (holds : ∀ {result}, done = some result → post result) : Ends post done := by
  cases done with
  | none => trivial
  | some result => exact holds rfl

theorem imp {done weaker} (ends : Ends post done)
    (implied : ∀ {result}, post result → weaker result) : Ends weaker done := by
  cases done with
  | none => trivial
  | some result => exact implied ends

theorem map {first} (ends : Ends (fun value => post (next value)) first) :
    Ends post (first.map next) := by
  cases first with
  | none => trivial
  | some value => exact ends

end Ends

end EosBase
