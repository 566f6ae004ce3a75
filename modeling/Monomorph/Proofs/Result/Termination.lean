import Monomorph.Proofs.Result.Constants

/-! The pass comes to an end, on every unit and under all settings.

No single quantity falls. Evaluating a constant marks it and asks for instances one level
deeper, constants of plain packages keep the level they are read from, and the queue
grows while it is worked off. What there is to do, counted level by level up to the limit,
falls lexicographically; each operation below settles from every sound state, and ends in
a sound state again.
-/

set_option autoImplicit false

namespace Monomorph

/-- Wherever the pass may be, each of its operations has one result that all large budgets give and
no budget contradicts. -/
structure Program.Terminates (program : Program) : Prop where
  constant : ∀ scope name site, ((Region.all program).knowing scope).Completes fun budget =>
    Lookup.ofBudget program budget (.constant scope name site)
  value : ∀ scope position decl, ((Region.all program).knowing scope).Completes fun budget =>
    program.valueOf (.ofBudget program budget) scope position decl
  expr : ∀ scope position site evaluator expr, ((Region.all program).knowing scope).Completes fun budget =>
    Evaluator.eval evaluator (program.namesIn scope position site budget) expr
  reference : ∀ reference scope position, ((Region.all program).knowing scope).Completes fun budget =>
    Lookup.ofBudget program budget (.reference reference scope position)
  target : ∀ reference scope position, ((Region.all program).knowing scope).Completes fun budget =>
    program.target (.ofBudget program budget) reference scope position
  arguments : ∀ package arguments evaluator scope position site,
    ((Region.all program).knowing scope).Completes fun budget =>
      Package.bindArguments package arguments evaluator (program.namesIn scope position site budget) site
  /-- An instance that is taken out of the queue, with all that its body queues. -/
  specialize : ∀ (state : State) position pending, state.Sound program → state.queue[position]? = some pending →
    Settles (fun budget => (program.specialize (.ofBudget program budget) (program.drainFrom budget) pending).run)
      (state.take position) fun _ final => state.Advances program final
  drainFrom : ∀ mark, (Region.all program).Completes fun budget => program.drainFrom budget mark
  drain : (Region.all program).Ends fun budget => program.drain budget

namespace Program

variable {program : Program} {region : Region program} {scope : Scope}

theorem knows_of_knowing (state : State) (here : (region.knowing scope).holds state) : state.Knows scope :=
  here.2

theorem bindArguments_completes (known : ∀ state, region.holds state → state.Knows scope) (package : Package)
    (arguments : List Expr) (evaluator : Evaluator) (position : Nat) (site : Span) :
    region.Completes fun budget =>
      package.bindArguments arguments evaluator (program.namesIn scope position site budget) site := by
  unfold Package.bindArguments
  split
  · apply bindFrom_completes
    intro argument _
    exact eval_completes (constants_in region) known position site evaluator argument
  · exact .throws _

theorem target_completes (known : ∀ state, region.holds state → state.Knows scope) (reference : Reference)
    (position : Nat) :
    region.Completes fun budget => program.target (.ofBudget program budget) reference scope position := by
  intro state here
  have each : ∀ argument, argument ∈ reference.arguments → ∀ evaluator : Evaluator,
      region.Completes fun budget =>
        evaluator.eval (program.namesIn scope position reference.span budget) argument :=
    fun argument _ evaluator => eval_completes (constants_in region) known position reference.span evaluator argument
  exact (target_settles reference position each state here).imp fun _ _ reached => reached.1

theorem terminates_all (program : Program) : program.Terminates where
  constant scope name site := constants_all program scope name site
  value scope position decl := valueOf_completes (constants_in _) knows_of_knowing position decl
  expr scope position site evaluator expr :=
    eval_completes (constants_in _) knows_of_knowing position site evaluator expr
  reference reference scope position := by
    apply referenced_completes (constants_in _)
    intro argument _ evaluator
    exact eval_completes (constants_in _) knows_of_knowing position reference.span evaluator argument
  target reference scope position := target_completes knows_of_knowing reference position
  arguments package arguments evaluator scope position site :=
    bindArguments_completes knows_of_knowing package arguments evaluator position site
  specialize state position pending sound found := by
    have drains (mark : Nat) : (under program pending.level (state.weight program)).Completes
        fun budget => program.drainFrom budget mark :=
      fun middle here => drainFrom_completes mark middle here.1
    exact (specialize_settles sound found program.drainFrom drains).imp fun _ _ reached => reached.1
  drainFrom mark := drainFrom_completes mark
  drain := drain_ends

end Program

namespace SourceUnit

/-- Whatever the unit and the settings are, the pass starts in a sound state, all of its operations come
to an end, and so does the whole of it, with an outcome that no budget changes. -/
theorem terminates (unit : SourceUnit) (settings : Settings) :
    (State.ofUnit unit).Sound (.ofUnit unit settings) ∧ (Program.ofUnit unit settings).Terminates ∧
      ∃ descriptions final,
        (∀ budget, unit.run? settings budget = none ∨ unit.run? settings budget = some (descriptions, final)) ∧
        (∃ enough, ∀ budget, enough ≤ budget → unit.run? settings budget = some (descriptions, final)) ∧
        unit.instantiate settings = unit.outcome descriptions final := by
  refine ⟨State.sound_ofUnit unit _, Program.terminates_all _, ?_⟩
  obtain ⟨⟨descriptions, final⟩, answers, enough, reached⟩ := unit.run?_settles settings
  have outcome := unit.instantiate_eq settings (reached enough (Nat.le_refl _))
  exact ⟨descriptions, final, answers, ⟨enough, reached⟩, outcome⟩

end SourceUnit

def chainUnit : SourceUnit :=
  ⟨"chain",
    [.package ⟨"P", [⟨"N", .const, nowhere⟩],
        [.const ⟨"X", none, .reference "P" [.binary .add (.ident "N") (.int 1)] ["X"] nowhere, nowhere⟩], nowhere⟩,
      .module ⟨"Top", [.const ⟨"C", none, .reference "P" [.int 0] ["X"] nowhere, nowhere⟩], nowhere⟩]⟩

def cycleUnit : SourceUnit :=
  ⟨"cycle",
    [.package ⟨"A", [⟨"N", .const, nowhere⟩],
        [.const ⟨"X", none, .reference "B" [.ident "N"] ["Y"] nowhere, nowhere⟩], nowhere⟩,
      .package ⟨"B", [⟨"N", .const, nowhere⟩],
        [.const ⟨"Y", none, .reference "A" [.ident "N"] ["X"] nowhere, nowhere⟩], nowhere⟩,
      .module ⟨"Top", [.const ⟨"C", none, .reference "A" [.int 1] ["X"] nowhere, nowhere⟩], nowhere⟩]⟩

-- the limit stops the one, and a constant that is asked for while it is evaluated the other
example : (chainUnit.run? ⟨32, 8⟩ 40).map (·.2.faults.map (·.cause)) = some [.recursionLimit "P" 8] := by
  decide +kernel

example : (cycleUnit.run? {} 40).map (·.2.faults.map (·.cause))
    = some [.cyclicConstant ["A::<1>::X", "B::<1>::Y", "A::<1>::X"]] := by
  decide +kernel

end Monomorph
