import Monomorph.Pass.Termination.Unit

/-! Instantiation of the generic packages of a unit.

The budget of the pass is raised until it is enough, which it is at some point by
`SourceUnit.exists_budget`. What the pass says then does not depend on the budget.
-/

set_option autoImplicit false

namespace Monomorph.SourceUnit

variable (unit : SourceUnit) (settings : Settings)

/-- The lowered descriptions and the state at the end of the pass, under a budget or,
while that is not enough, under twice as much and one more. -/
def endFrom (budget : Nat) : List Description × State :=
  match found : unit.run? settings budget with
  | some result => result
  | none => endFrom (2 * budget + 1)
termination_by Classical.choose (unit.exists_budget settings) - budget
decreasing_by
  -- a budget without a result lies below the one that is known to be enough
  have enough := Classical.choose_spec (unit.exists_budget settings)
  have short : budget < Classical.choose (unit.exists_budget settings) := by
    refine Nat.lt_of_not_le fun large => ?_
    have := enough budget large
    rw [found] at this
    cases this
  omega

/-- Replace the generic packages of a unit by instances for the arguments that it refers to
them with. -/
def instantiate : Outcome :=
  let (descriptions, state) := unit.endFrom settings 1000
  unit.outcome descriptions state

theorem run?_endFrom (budget : Nat) :
    ∃ larger, unit.run? settings larger = some (unit.endFrom settings budget) := by
  fun_induction endFrom unit settings budget with
  | case1 budget result found => exact ⟨budget, found⟩
  | case2 budget found ih => exact ih

theorem instantiate_eq {budget : Nat} {descriptions : List Description} {state : State}
    (found : unit.run? settings budget = some (descriptions, state)) :
    unit.instantiate settings = unit.outcome descriptions state := by
  obtain ⟨larger, reached⟩ := unit.run?_endFrom settings 1000
  have same := unit.run?_unique settings reached found
  simp only [instantiate, same]

end Monomorph.SourceUnit
