import Monomorph.Proofs.Cycle.Unit
import Monomorph.Proofs.Dependency.Rest

/-! Cyclic constants are detected exactly.

At every moment of the pass the constants under evaluation are those on the stack,
and where an item or a body is started there are none. A fault about cyclic constants
therefore always has a cycle to show: its labels go from one constant back to it, each
of the constants asks for the next, and none of them has a value.
-/

set_option autoImplicit false

namespace Monomorph

/-- A chain of labels says why constants have no values: they ask for each other in a circle. -/
structure Program.Reports (program : Program) (registry : Registry) (chain : List String)
    (first : ConstantKey) (rest : List ConstantKey) : Prop where
  labels : chain = (first :: rest ++ [first]).map (·.label registry)
  distinct : (first :: rest).Nodup
  asks : (first :: rest ++ [first]).IsChain (program.Asks registry)
  returns : ∀ key ∈ first :: rest, Relation.TransGen (program.Asks registry) key key
  undefined : ∀ key ∈ first :: rest, ∀ value, ¬ program.ConstantValue registry .value key.scope key.name value

theorem State.Explains.reports {program : Program} {state : State} {chain : List String}
    (explains : state.Explains program chain) :
    ∃ first rest, state.Holds fun registry => program.Reports registry chain first rest := by
  obtain ⟨first, rest, holds⟩ := explains
  refine ⟨first, rest, fun registry grows => ?_⟩
  obtain ⟨labels, cycle⟩ := holds registry grows
  exact ⟨labels, cycle.distinct, cycle.asks, fun _ => cycle.returns, fun _ => cycle.not_constantValue⟩

namespace SourceUnit

structure DetectsCycles (unit : SourceUnit) (settings : Settings) : Prop where
  /-- A constant is marked exactly as long as it is on the stack. -/
  marks : unit.Always settings fun _ state => state.Exact
  /-- So it is when a constant has just been put on the stack. -/
  enters : unit.Always settings fun moment state => ∀ scope name site,
    moment = .starts (.request (.constant scope name site)) →
    state.constants.get? ⟨scope, name⟩ = none → (state.enter ⟨scope, name⟩).Exact
  /-- Nothing is under evaluation when work on an item or a body starts. -/
  idle : unit.Always settings fun moment state =>
    (moment = .starts .item → state.stack = []) ∧
      ∀ pending, moment = .starts (.body pending) → state.stack = []
  /-- Each constant on the stack asks for the one above it, and the one on top for what is requested. -/
  links : unit.Always settings fun moment state =>
    state.stack.IsChain ((Program.ofUnit unit settings).Asks state.registry) ∧
      ∀ scope name site, moment = .starts (.request (.constant scope name site)) →
        ∀ top ∈ state.stack.getLast?, (Program.ofUnit unit settings).Asks state.registry top ⟨scope, name⟩
  /-- The faults that are noted on the way have cycles to show. -/
  keeps : unit.Always settings fun _ state => ∀ fault, state.Keeps fault →
    ∀ chain, fault.cause = .cyclicConstant chain → ∃ first rest,
      state.Holds fun registry => (Program.ofUnit unit settings).Reports registry chain first rest
  /-- And so have the faults that are reported in the end. -/
  reports : ∀ failure, unit.instantiate settings = .failure failure → ∀ fault ∈ failure.faults,
    ∀ chain, fault.cause = .cyclicConstant chain → ∃ first rest,
      (unit.finalState settings).Holds fun registry =>
        (Program.ofUnit unit settings).Reports registry chain first rest

theorem Always.ends {unit : SourceUnit} {settings : Settings} {assertion : Moment → State → Prop}
    (always : unit.Always settings assertion) : assertion (.ends .unit) (unit.finalState settings) := by
  classical
  obtain ⟨budget, ran⟩ := unit.run?_endFrom settings 1000
  -- the strictest check that accepts the assertion has accepted the last state
  have accepts : Check.Accepts (fun moment state => decide (assertion moment state)) assertion :=
    fun _ _ holds => decide_eq_true holds
  have checked := (always _ accepts budget).trans ran
  replace checked : (if _ then _ else _) = some (unit.endFrom settings 1000) := checked
  split at checked
  · exact of_decide_eq_true (Option.filter_eq_some_iff.mp checked).2
  · cases checked

theorem faults_of_instantiate {unit : SourceUnit} {settings : Settings} {failure : Failure}
    (ended : unit.instantiate settings = .failure failure) :
    failure.faults = (unit.finalState settings).faults := by
  obtain ⟨budget, ran⟩ := unit.run?_endFrom settings 1000
  rw [unit.instantiate_eq settings ran] at ended
  unfold outcome at ended
  split at ended
  · cases ended
  · cases ended
    rfl

theorem detectsCycles (unit : SourceUnit) (settings : Settings) : unit.DetectsCycles settings where
  marks := (unit.always_sound settings).imp fun _ _ sound => sound.1.toExact
  enters := (unit.always_sound settings).imp fun _ _ sound _ _ _ _ new => sound.1.toExact.enter new
  idle := by
    refine (unit.always_sound settings).imp fun moment state sound => ⟨?_, fun pending => ?_⟩
    · rintro rfl
      exact sound.2
    · rintro rfl
      exact sound.2
  links := by
    refine (unit.always_sound settings).imp fun moment state sound => ⟨sound.1.asks.now, ?_⟩
    rintro scope name site rfl top member
    exact State.Holds.now sound.2 top member _ rfl
  keeps := (unit.always_sound settings).imp fun _ _ sound fault kept chain cause =>
    (sound.1.explains fault kept chain (Fault.chain?_eq_some.mpr cause)).reports
  reports := by
    intro failure ended fault member chain cause
    rw [faults_of_instantiate ended] at member
    obtain ⟨tracked, _⟩ := (unit.always_sound settings).ends
    exact (tracked.explains fault (.reported member) chain (Fault.chain?_eq_some.mpr cause)).reports

end SourceUnit

def outerUnit : SourceUnit :=
  ⟨"outer",
    [.package ⟨"P", [⟨"N", .const, nowhere⟩],
        [.const ⟨"D", none, .reference "A" [.ident "N"] ["X"] nowhere, nowhere⟩], nowhere⟩,
      .package ⟨"A", [⟨"N", .const, nowhere⟩],
        [.const ⟨"X", none, .reference "B" [.ident "N"] ["Y"] nowhere, nowhere⟩], nowhere⟩,
      .package ⟨"B", [⟨"N", .const, nowhere⟩],
        [.const ⟨"Y", none, .reference "A" [.ident "N"] ["X"] nowhere, nowhere⟩], nowhere⟩,
      .module ⟨"Top", [.const ⟨"C", none, .reference "P" [.int 1] ["D"] nowhere, nowhere⟩], nowhere⟩]⟩

-- the check is made: there are moments with three constants under evaluation, and none with more
example : (outerUnit.checked? {} (fun _ state => state.stack.length < 3) 40).isNone ∧
    (outerUnit.checked? {} (fun _ state => state.stack.length < 4) 40).isSome := by
  decide +kernel

/-- The constant outside is under evaluation as well, but has no part in what is reported. -/
theorem detectsCycles_outerUnit : ∃ stopped, outerUnit.instantiate {} = .failure stopped ∧
    ∃ fault ∈ stopped.faults, fault.cause = .cyclicConstant ["A::<1>::X", "B::<1>::Y", "A::<1>::X"] ∧
      ∃ first rest, (outerUnit.finalState {}).Holds fun registry =>
        (Program.ofUnit outerUnit {}).Reports registry ["A::<1>::X", "B::<1>::Y", "A::<1>::X"] first rest := by
  have causes : (outerUnit.run? {} 40).map (·.2.faults.map (·.cause))
      = some [.cyclicConstant ["A::<1>::X", "B::<1>::Y", "A::<1>::X"]] := by
    decide +kernel
  obtain ⟨⟨descriptions, final⟩, ran, causes⟩ := Option.map_eq_some_iff.mp causes
  have listed : Cause.cyclicConstant ["A::<1>::X", "B::<1>::Y", "A::<1>::X"] ∈ final.faults.map (·.cause) := by
    rw [causes]
    exact List.mem_cons_self
  obtain ⟨fault, member, cause⟩ := List.mem_map.mp listed
  have failed : outerUnit.instantiate {} = .failure ⟨final.faults, final.specialized⟩ := by
    rw [outerUnit.instantiate_eq {} ran, SourceUnit.outcome, if_neg]
    rw [List.isEmpty_iff]
    exact List.ne_nil_of_mem member
  exact ⟨_, failed, fault, member, cause, (outerUnit.detectsCycles {}).reports _ failed fault member _ cause⟩

end Monomorph
