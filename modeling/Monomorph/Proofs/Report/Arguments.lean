import Monomorph.Proofs.Binding.Typed
import Monomorph.Proofs.Constant.Text
import Monomorph.Proofs.Result.Completion

/-! What the arguments in a report tell of an instance.

A record shows the arguments of its instance as texts. Different instances of a base have
different argument sets, and these have different texts unless, in some place, both have an
integer of unwritten width and its type is all that differs. Parameters that are declared with
a type have no such arguments, so their instances are told apart.
-/

set_option autoImplicit false

namespace Monomorph

/-- Integers of unwritten widths that differ in their types. -/
structure Value.Conceals (first second : Value) : Prop where
  left : first.isSized = false
  right : second.isSized = false
  types : first.type ≠ second.type

theorem Value.conceals_of_spelling_eq {first second : Value} (alike : first.spelling = second.spelling)
    (types : first.type ≠ second.type) : first.Conceals second := by
  cases first with
  | bool value =>
    cases second with
    | bool value' => exact absurd rfl types
    | int b =>
      rw [spelling, spelling] at alike
      split at alike <;> cases alike
  | int a =>
    cases second with
    | bool value' =>
      rw [spelling, spelling] at alike
      split at alike <;> cases alike
    | int b =>
      simp only [spelling] at alike
      split at alike
      all_goals split at alike
      · obtain ⟨widths, signs, _⟩ := Spelling.typed.inj alike
        exact absurd (congrArg₂ ValueType.int widths signs) types
      · cases alike
      · cases alike
      · exact ⟨by simpa [isSized] using ‹¬a.sized = true›, by simpa [isSized] using ‹¬b.sized = true›, types⟩

namespace Arguments

variable {first second : Arguments}

theorem map_text_eq_iff (left : first.WellFormed) (right : second.WellFormed) :
    first.map Value.text = second.map Value.text ↔ first.map Value.spelling = second.map Value.spelling := by
  induction first generalizing second with
  | nil => simp
  | cons value rest ih =>
    cases second with
    | nil => simp
    | cons value' rest' =>
      obtain ⟨left, lefts⟩ := List.forall_mem_cons.mp left
      obtain ⟨right, rights⟩ := List.forall_mem_cons.mp right
      simp only [List.map_cons, List.cons.injEq, Value.text_eq_iff left right, ih lefts rights]

/-- Sets that are spelled alike are equal, or have a place where the type is not seen. -/
theorem same_or_conceals (left : first.WellFormed) (right : second.WellFormed)
    (alike : first.map Value.spelling = second.map Value.spelling) :
    first.same second = true ∨ ∃ (position : Nat) (value value' : Value), first[position]? = some value ∧
      second[position]? = some value' ∧ value.Conceals value' := by
  induction first generalizing second with
  | nil =>
    cases second with
    | nil => exact .inl rfl
    | cons value' rest' => cases alike
  | cons value rest ih =>
    cases second with
    | nil => cases alike
    | cons value' rest' =>
      rw [List.map_cons, List.map_cons, List.cons.injEq] at alike
      obtain ⟨left, lefts⟩ := List.forall_mem_cons.mp left
      obtain ⟨right, rights⟩ := List.forall_mem_cons.mp right
      by_cases types : value.type = value'.type
      · have here := Value.same_of_spelling_eq left right alike.1 types
        rcases ih lefts rights alike.2 with others | ⟨position, found⟩
        · exact .inl (Bool.and_eq_true_iff.mpr ⟨here, others⟩)
        · exact .inr ⟨position + 1, found⟩
      · exact .inr ⟨0, value, value', rfl, rfl, Value.conceals_of_spelling_eq alike.1 types⟩

end Arguments

/-- The records of a base are told apart by their arguments. -/
def Report.Identifies (report : Report) : Prop :=
  ∀ first ∈ report.instances, ∀ second ∈ report.instances, first.base = second.base → first.id ≠ second.id →
    first.arguments ≠ second.arguments

structure SourceUnit.Separates (unit : SourceUnit) (settings : Settings) (first second : SpecializedPackage) :
    Prop where
  alike_iff : first.record.arguments = second.record.arguments ↔
    first.arguments.map Value.spelling = second.arguments.map Value.spelling
  conceals : first.record.arguments = second.record.arguments → ∃ (position : Nat) (value value' : Value),
    first.arguments[position]? = some value ∧ second.arguments[position]? = some value' ∧ value.Conceals value'
  typed : ∀ source, (Program.ofUnit unit settings).generic? first.target.base = some source →
    (∀ parameter ∈ source.parameters, parameter.fixes = true) → first.record.arguments ≠ second.record.arguments

namespace SourceUnit

variable {unit : SourceUnit} {settings : Settings} {result : InstantiatedUnit}

theorem separates_of_success (success : unit.instantiate settings = .success result)
    {first second : SpecializedPackage} (here : first ∈ result.packages) (there : second ∈ result.packages)
    (bases : first.target.base = second.target.base) (apart : first.target ≠ second.target) :
    unit.Separates settings first second := by
  obtain ⟨_, packages, registry⟩ := finalState_of_success success
  have coherent := (unit.rests_finalState settings).coherent
  have consistent : (unit.finalState settings).Consistent (.ofUnit unit settings) :=
    (final_endFrom 1000).settled.consistent
  rw [packages] at here there
  have stored := coherent.arguments first here
  have stored' := coherent.arguments second there
  have left := consistent.formed.get? stored
  have right := consistent.formed.get? stored'
  have alike := Arguments.map_text_eq_iff left right
  -- the registry has one instance for each argument set, so the sets of the two packages are different
  have different : ¬first.arguments.same second.arguments = true := fun agree =>
    apart (Registry.eq_of_same stored stored' bases agree)
  have conceals (same : first.record.arguments = second.record.arguments) :=
    (Arguments.same_or_conceals left right (alike.mp same)).resolve_left different
  refine ⟨alike, conceals, ?_⟩
  intro source generic fixed same
  obtain ⟨position, value, _, found, _, concealed⟩ := conceals same
  have sized := (consistent.accepted.get? stored).isSized generic fixed value (List.mem_of_getElem? found)
  rw [concealed.left] at sized
  cases sized

/-- Each record is that of a package, and records of one base with different numbers compare by their arguments as
the packages do. -/
theorem separates_of_instantiate (success : unit.instantiate settings = .success result)
    {first second : InstanceRecord} (here : first ∈ (Report.ofUnit result).instances)
    (there : second ∈ (Report.ofUnit result).instances) (bases : first.base = second.base)
    (ids : first.id ≠ second.id) :
    ∃ package ∈ result.packages, ∃ package' ∈ result.packages, package.record = first ∧ package'.record = second ∧
      unit.Separates settings package package' := by
  have records := (corresponds_of_success success).records
  obtain ⟨package, member, rfl⟩ := List.mem_map.mp (records.mem_iff.mpr here)
  obtain ⟨package', member', rfl⟩ := List.mem_map.mp (records.mem_iff.mpr there)
  refine ⟨package, member, package', member', rfl, rfl, separates_of_success success member member' bases ?_⟩
  intro same
  rw [SpecializedPackage.record, SpecializedPackage.record, same] at ids
  exact ids rfl

end SourceUnit

def lanePackage : Package :=
  ⟨"Lane", [⟨"N", .const, nowhere⟩], [.const ⟨"Width", none, .ident "N", nowhere⟩], nowhere⟩

/-- A module that asks for four instances: for one in two widths, for minus one, and for the largest
unsigned integer, which the widest signed type reads as minus one. -/
def laneUnit : SourceUnit :=
  let width (name : String) (argument : Expr) : ModuleItem :=
    .const ⟨name, none, .reference "Lane" [argument] ["Width"] nowhere, nowhere⟩
  ⟨"lanes",
    [.package lanePackage,
      .module ⟨"Top",
        [width "A" (.int 1), width "B" (.binary .shr (.int 0x100000000) (.int 32)),
          width "C" (.unary .neg (.int 1)), width "D" (.int 0xffffffffffffffffffffffffffffffff)], nowhere⟩]⟩

theorem laneUnit_ends : ∃ result, laneUnit.instantiate {} = .success result ∧
    (Report.ofUnit result).instances = [⟨"__Lane__1", "Lane", 1, ["1"]⟩, ⟨"__Lane__2", "Lane", 2, ["1"]⟩,
      ⟨"__Lane__3", "Lane", 3, ["-1"]⟩, ⟨"__Lane__4", "Lane", 4, ["-1"]⟩] := by
  have evaluated : (laneUnit.run? {} 20).map (fun final => (final.2.faults.isEmpty,
      (Report.ofUnit ⟨"lanes", final.1, final.2.specialized, final.2.registry⟩).instances))
      = some (true, [⟨"__Lane__1", "Lane", 1, ["1"]⟩, ⟨"__Lane__2", "Lane", 2, ["1"]⟩,
        ⟨"__Lane__3", "Lane", 3, ["-1"]⟩, ⟨"__Lane__4", "Lane", 4, ["-1"]⟩]) := by decide +kernel
  obtain ⟨⟨descriptions, final⟩, ran, parts⟩ := Option.map_eq_some_iff.mp evaluated
  obtain ⟨clean, records⟩ := Prod.mk.inj parts
  exact ⟨_, SourceUnit.instantiate_eq_success ran clean, records⟩

theorem separates_laneUnit : ∃ result first second, laneUnit.instantiate {} = .success result ∧
    (first ∈ (Report.ofUnit result).instances ∧ second ∈ (Report.ofUnit result).instances) ∧
    (first.base = second.base ∧ first.id ≠ second.id) ∧
    ∃ package ∈ result.packages, ∃ package' ∈ result.packages, package.record = first ∧ package'.record = second ∧
      laneUnit.Separates {} package package' := by
  obtain ⟨result, success, records⟩ := laneUnit_ends
  have here : ⟨"__Lane__1", "Lane", 1, ["1"]⟩ ∈ (Report.ofUnit result).instances := by simp [records]
  have there : ⟨"__Lane__4", "Lane", 4, ["-1"]⟩ ∈ (Report.ofUnit result).instances := by simp [records]
  exact ⟨result, _, _, success, ⟨here, there⟩, ⟨rfl, by decide⟩,
    SourceUnit.separates_of_instantiate success here there rfl (by decide)⟩

/-- One in 32 bits and one in 33 bits are two instances with one text. -/
theorem not_identifies_laneUnit : ∃ result, laneUnit.instantiate {} = .success result ∧
    ¬(Report.ofUnit result).Identifies := by
  obtain ⟨result, success, records⟩ := laneUnit_ends
  refine ⟨result, success, fun identifies => ?_⟩
  rw [Report.Identifies, records] at identifies
  exact identifies _ List.mem_cons_self _ (List.mem_cons_of_mem _ List.mem_cons_self) rfl (by decide) rfl

end Monomorph
