import Monomorph.Proofs.Pass.Unit

/-! The constants of instances have the values that the rules of denotation give them.

Constants are evaluated on demand and remembered, in an order that depends on where
they are first asked for, and while instances are still being numbered. Neither the
order nor a fault elsewhere in the unit changes a value.
-/

set_option autoImplicit false

namespace Monomorph

def Outcome.packages : Outcome → List SpecializedPackage
  | .success unit => unit.packages
  | .failure stopped => stopped.packages

namespace SourceUnit

variable (unit : SourceUnit) (settings : Settings)

def finalRegistry : Registry := (unit.endFrom settings 1000).2.registry

theorem packages_instantiate :
    (unit.instantiate settings).packages = (unit.endFrom settings 1000).2.specialized := by
  simp only [instantiate, outcome]
  split <;> rfl

variable {unit settings}

theorem endFrom_eq {budget start : Nat} {result : List Description × State}
    (found : unit.run? settings budget = some result) : unit.endFrom settings start = result := by
  obtain ⟨larger, reached⟩ := unit.run?_endFrom settings start
  exact unit.run?_unique settings reached found

theorem final_endFrom (start : Nat) : (unit.endFrom settings start).2.Final (.ofUnit unit settings) := by
  obtain ⟨larger, reached⟩ := unit.run?_endFrom settings start
  exact (run?_ends reached).1

theorem specializes_of_mem_packages {package : SpecializedPackage}
    (member : package ∈ (unit.instantiate settings).packages) :
    (Program.ofUnit unit settings).Specializes (unit.finalRegistry settings) package := by
  rw [packages_instantiate] at member
  exact ((final_endFrom 1000).settled.consistent.completed package member).now

/-- Whether the pass succeeds or fails, each constant of each package that it completed has exactly
the value that the rules give it in the registry at the end. -/
theorem constantValue_iff_of_mem_constants {package : SpecializedPackage}
    (completed : package ∈ (unit.instantiate settings).packages) {name : String} {value : Value}
    (listed : (name, value) ∈ package.constants) (found : Value) :
    (Program.ofUnit unit settings).ConstantValue (unit.finalRegistry settings) .value
      (.instantiated package.target) name found ↔ found = value := by
  have denotes := (specializes_of_mem_packages completed).constants name value listed
  constructor
  · intro other
    exact other.unique denotes
  · intro same
    rw [same]
    exact denotes

end SourceUnit

def nowhere : Span := ⟨none, 0, 0⟩

def sampleUnit : SourceUnit :=
  ⟨"sample",
    [.package ⟨"Counter", [⟨"N", .const, nowhere⟩],
      [.const ⟨"Last", none, .binary .add (.ident "N") (.int 1), nowhere⟩,
        .const ⟨"Bits", some (.int .u32), .call "clog2" [.ident "Last"], nowhere⟩,
        .typeDef "Word" (.logic (some (.ident "Bits")))], nowhere⟩,
      .package ⟨"Bank", [⟨"Depth", .typed (.int .u32), nowhere⟩],
        [.const ⟨"Address", none, .reference "Counter" [.ident "Depth"] ["Bits"] nowhere, nowhere⟩], nowhere⟩,
      .module ⟨"Top",
        [.const ⟨"A", none,
            .binary .sub (.reference "Bank" [.int 15] ["Address"] nowhere) (.int 1), nowhere⟩,
          .var "count" (.reference ⟨"Counter", [.binary .mul (.int 3) (.int 5)], ["Word"], nowhere⟩)],
        nowhere⟩]⟩

/-- The address of the bank is read from a counter that is numbered while it is evaluated. -/
theorem constantValue_sampleUnit_address :
    ∃ package ∈ (sampleUnit.instantiate {}).packages,
      ("Address", Value.int ⟨4, 32, false, true⟩) ∈ package.constants ∧
      ∀ found, (Program.ofUnit sampleUnit {}).ConstantValue (sampleUnit.finalRegistry {}) .value
        (.instantiated package.target) "Address" found ↔ found = .int ⟨4, 32, false, true⟩ := by
  have constants : (sampleUnit.run? {} 20).map (fun result => result.2.specialized.map (·.constants))
      = some [[("Last", .int ⟨16, 32, false, true⟩), ("Bits", .int ⟨4, 32, false, true⟩)],
        [("Address", .int ⟨4, 32, false, true⟩)]] := by
    decide +kernel
  obtain ⟨result, ran, lists⟩ := Option.map_eq_some_iff.mp constants
  have packages : (sampleUnit.instantiate {}).packages = result.2.specialized := by
    rw [SourceUnit.packages_instantiate, SourceUnit.endFrom_eq ran]
  have listed : [("Address", Value.int ⟨4, 32, false, true⟩)] ∈ result.2.specialized.map (·.constants) := by
    rw [lists]
    decide
  obtain ⟨package, member, same⟩ := List.mem_map.mp listed
  have completed : package ∈ (sampleUnit.instantiate {}).packages := packages ▸ member
  have entry : ("Address", Value.int ⟨4, 32, false, true⟩) ∈ package.constants := by
    rw [same]
    exact List.mem_singleton_self _
  exact ⟨package, completed, entry, SourceUnit.constantValue_iff_of_mem_constants completed entry⟩

end Monomorph
