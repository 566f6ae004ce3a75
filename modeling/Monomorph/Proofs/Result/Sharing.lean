import Monomorph.Proofs.Denotation.Sharing
import Monomorph.Proofs.Dependency.Rest
import Monomorph.Proofs.Result.Constants

/-! What equal argument sets have in common.

The first call site with a set fixes the spelling that its instance is evaluated with.
Under another order of the call sites, another set that compares equal may be the one
that is kept. The constants of the instance do not depend on which one it is, as long as
no negation looks at the spelling and the instance is completed both times.
-/

set_option autoImplicit false

namespace Monomorph

theorem Program.Specializes.exists_constant {program : Program} {registry : Registry}
    {package : SpecializedPackage} (specializes : program.Specializes registry package) {name : String}
    {index : Nat} {decl : ConstDecl}
    (found : program.findConst (.instantiated package.target) name = some (index, decl)) :
    ∃ value, (name, value) ∈ package.constants := by
  obtain ⟨source, generic, found⟩ := Option.bind_eq_some_iff.mp found
  obtain ⟨member, named⟩ := mem_of_findConst found
  obtain ⟨item, listed, isConst⟩ := List.mem_map.mp member
  cases item with
  | const other =>
    cases isConst
    rw [← named]
    exact specializes.listed source generic decl listed
  | _ => cases isConst

namespace SourceUnit

def ground (unit : SourceUnit) (settings : Settings) : Ground :=
  ⟨.ofUnit unit settings, unit.finalRegistry settings⟩

theorem wellFormed_finalRegistry (unit : SourceUnit) (settings : Settings) :
    (unit.finalRegistry settings).WellFormed :=
  (unit.rests_finalState settings).consistent.formed

theorem get?_of_mem_packages {unit : SourceUnit} {settings : Settings} {package : SpecializedPackage}
    (completed : package ∈ (unit.instantiate settings).packages) :
    (unit.finalRegistry settings).get? package.target = some package.arguments :=
  (unit.rests_finalState settings).coherent.arguments package (packages_instantiate unit settings ▸ completed)

end SourceUnit

/-- Two argument sets serve for each other. -/
structure Arguments.Serves (first second : Arguments) : Prop where
  /-- A declaration has equal values under both, or none under both, unless a negation or its conversion
  looks at the spelling. -/
  declarations : ∀ (package : Package) (defaultWidth : Nat) {resolver resolver' : Resolver Stop Id},
    resolver.Alike resolver' → ∀ decl : ConstDecl,
    decl.negatesApart (package.evaluator defaultWidth first) (package.evaluator defaultWidth second)
      resolver resolver' = false →
    (Agree Value.Same (decl.evaluate (package.evaluator defaultWidth first) resolver).run
        (decl.evaluate (package.evaluator defaultWidth second) resolver').run ↔
      decl.convertsApart (package.evaluator defaultWidth first) (package.evaluator defaultWidth second)
        resolver resolver' = false)
  /-- Instances for them that passes over the same packages complete have equal constants, unless a
  negation looks at the spelling. -/
  instances : ∀ {unit unit' : SourceUnit} {settings settings' : Settings},
    (∀ name, (Program.ofUnit unit' settings').package? name = (Program.ofUnit unit settings).package? name) →
    settings'.defaultIntegerWidth = settings.defaultIntegerWidth →
    ∀ package ∈ (unit.instantiate settings).packages, ∀ package' ∈ (unit'.instantiate settings').packages,
    package.target.base = package'.target.base → package.arguments = first → package'.arguments = second →
    ∀ name value, (name, value) ∈ package.constants → ∃ value', (name, value') ∈ package'.constants ∧
      (value.Same value' ∨ (unit.ground settings).ConstantApart (unit'.ground settings') .value
        (.instantiated package.target) (.instantiated package'.target) name)

theorem Arguments.serves_of_same {first second : Arguments} (same : first.same second = true)
    (formed : first.WellFormed) : first.Serves second where
  declarations _ _ _ _ resolvers decl together :=
    ConstDecl.evaluate_agree_iff (Package.alike_evaluator same formed) resolvers decl together
  instances := by
    intro unit unit' settings settings' packages width package completed package' completed' base sets sets'
      name value listed
    subst sets sets'
    have shares : (unit.ground settings).Shares (unit'.ground settings') :=
      ⟨packages, width, unit.wellFormed_finalRegistry settings⟩
    have matched : (unit.ground settings).Matches (unit'.ground settings') (.instantiated package.target)
        (.instantiated package'.target) :=
      .instantiated base (SourceUnit.get?_of_mem_packages completed) (SourceUnit.get?_of_mem_packages completed') same
    have denotes := (SourceUnit.specializes_of_mem_packages completed).constants name value listed
    have specializes' := SourceUnit.specializes_of_mem_packages completed'
    -- the constant is declared in the base, so both packages have it
    obtain ⟨value', listed'⟩ : ∃ value', (name, value') ∈ package'.constants := by
      cases denotes with
      | intro found _ _ _ _ => exact specializes'.exists_constant ((shares.findConst matched name).trans found)
    refine ⟨value', listed', or_iff_not_imp_right.mpr ?_⟩
    exact denotes.same shares matched (specializes'.constants name value' listed')

/-- Constants that read a parameter: one that looks at no spelling, and a negation. -/
def offsets : Package :=
  ⟨"Offsets", [⟨"N", .const, nowhere⟩],
    [.const ⟨"Next", some (.int .u32), .binary .add (.ident "N") (.int 1), nowhere⟩,
      .const ⟨"Back", none, .unary .neg (.ident "N"), nowhere⟩], nowhere⟩

def eight (sized : Bool) : Value := .int ⟨8, 32, false, sized⟩

/-- Two call sites with equal arguments; the width is written at the first one or at the second one. -/
def eightsUnit (sized : Bool) : SourceUnit :=
  let site (name : String) (sized : Bool) : ModuleItem :=
    .const ⟨name, none, .reference "Offsets" [.literal (.int 8 (if sized then some 32 else none) false)] ["Next"]
      nowhere, nowhere⟩
  ⟨"eights", [.package offsets, .module ⟨"Top", [site "A" sized, site "B" !sized], nowhere⟩]⟩

/-- The first call site decides which of the two sets the instance is evaluated with. -/
theorem completed_eightsUnit (sized : Bool) :
    ∃ package ∈ ((eightsUnit sized).instantiate {}).packages,
      package.target.base = "Offsets" ∧ package.arguments = [eight sized] ∧
      package.constants = [("Next", .int ⟨9, 32, false, true⟩),
        ("Back", .int ⟨4294967288, 32, !sized, sized⟩)] := by
  have ran : ((eightsUnit sized).run? {} 20).map (fun result => result.2.specialized.map fun package =>
        (package.target.base, package.arguments, package.constants))
      = some [("Offsets", [eight sized], [("Next", .int ⟨9, 32, false, true⟩),
          ("Back", .int ⟨4294967288, 32, !sized, sized⟩)])] := by
    cases sized <;> decide +kernel
  obtain ⟨result, ran, lists⟩ := Option.map_eq_some_iff.mp ran
  obtain ⟨package, packages, entry⟩ := List.map_eq_singleton_iff.mp lists
  simp only [Prod.mk.injEq] at entry
  refine ⟨package, ?_, entry⟩
  rw [SourceUnit.packages_instantiate, SourceUnit.endFrom_eq ran, packages]
  exact List.mem_singleton_self package

theorem not_constantApart_next {target target' : Instance} {arguments : Arguments} (base : target.base = "Offsets")
    (stored : ((eightsUnit false).finalRegistry {}).get? target = some (eight false :: arguments)) :
    ¬((eightsUnit false).ground {}).ConstantApart ((eightsUnit true).ground {}) .value (.instantiated target)
      (.instantiated target') "Next" := by
  have generic : (Program.ofUnit (eightsUnit false) {}).generic? target.base = some offsets := by
    rw [base]
    rfl
  have found : (Program.ofUnit (eightsUnit false) {}).findConst (.instantiated target) "Next"
      = some (0, ⟨"Next", some (.int .u32), .binary .add (.ident "N") (.int 1), nowhere⟩) := by
    rw [Program.findConst, generic]
    rfl
  intro apart
  cases apart with
  | value found' made _ apart =>
    cases found.symm.trans found'
    cases (Package.evaluator_instantiated generic (Registry.resolve_eq_ok.mpr stored)).symm.trans made
    cases apart with
    | left apart =>
      cases apart with
      | constant free _ => cases free
    | right apart => cases apart
  | type found' _ _ declared _ =>
    cases found.symm.trans found'
    cases declared

theorem Arguments.serves_eights :
    (∃ index decl, offsets.findConst "Next" = some (index, decl) ∧
      Agree Value.Same (decl.evaluate (offsets.evaluator 32 [eight false]) (Resolver.closed.adapt .evaluation)).run
        (decl.evaluate (offsets.evaluator 32 [eight true]) (Resolver.closed.adapt .evaluation)).run) ∧
    ∃ package ∈ ((eightsUnit false).instantiate {}).packages,
      ∃ package' ∈ ((eightsUnit true).instantiate {}).packages,
      package.arguments = [eight false] ∧ package'.arguments = [eight true] ∧
      ∃ value value', ("Next", value) ∈ package.constants ∧ ("Next", value') ∈ package'.constants ∧
        value.Same value' := by
  have formed : Arguments.WellFormed [eight false] := by
    intro value member
    rw [List.mem_singleton.mp member]
    show IntValue.WellFormed ⟨8, 32, false, false⟩
    decide
  have serves : Arguments.Serves [eight false] [eight true] := Arguments.serves_of_same (by decide) formed
  have resolvers : (Resolver.closed.adapt Stop.evaluation).Alike (Resolver.closed.adapt .evaluation) :=
    ⟨fun _ => .error, fun _ => .error⟩
  refine ⟨⟨0, _, rfl, (serves.declarations offsets 32 resolvers _ rfl).mpr rfl⟩, ?_⟩
  obtain ⟨package, completed, base, arguments, constants⟩ := completed_eightsUnit false
  obtain ⟨package', completed', base', arguments', constants'⟩ := completed_eightsUnit true
  have listed : ("Next", Value.int ⟨9, 32, false, true⟩) ∈ package.constants := by simp [constants]
  have packages (name : String) : (Program.ofUnit (eightsUnit true) {}).package? name
      = (Program.ofUnit (eightsUnit false) {}).package? name := rfl
  obtain ⟨value', listed', outcome⟩ := serves.instances packages rfl package completed package' completed'
    (base.trans base'.symm) arguments arguments' "Next" _ listed
  refine ⟨package, completed, package', completed', arguments, arguments', _, value', listed, listed', ?_⟩
  exact outcome.resolve_right
    (not_constantApart_next base (arguments ▸ SourceUnit.get?_of_mem_packages completed))

/-- Eight compares equal whether its width is written or not. But its negation is signed in one case and
unsigned in the other, which the order of the call sites decides, and as a wider constant it has a value
in the first case only. -/
theorem Arguments.eights_apart :
    Arguments.same [eight false] [eight true] = true ∧
    (∀ decl ∈ [(⟨"Back", none, .unary .neg (.ident "N"), nowhere⟩ : ConstDecl),
        ⟨"Wide", some (.int .u64), .ident "N", nowhere⟩],
      ¬Agree Value.Same (decl.evaluate (offsets.evaluator 32 [eight false]) (Resolver.closed.adapt .evaluation)).run
        (decl.evaluate (offsets.evaluator 32 [eight true]) (Resolver.closed.adapt .evaluation)).run) ∧
    ∃ package ∈ ((eightsUnit false).instantiate {}).packages,
      ∃ package' ∈ ((eightsUnit true).instantiate {}).packages,
      package.arguments = [eight false] ∧ package'.arguments = [eight true] ∧
      ∃ value value', ("Back", value) ∈ package.constants ∧ ("Back", value') ∈ package'.constants ∧
        ¬value.Same value' := by
  refine ⟨by decide, List.forall_mem_cons.mpr ⟨?_, List.forall_mem_singleton.mpr ?_⟩, ?_⟩
  · intro agree
    cases agree with
    | ok same => cases same
  · intro agree
    cases agree
  · obtain ⟨package, completed, _, arguments, constants⟩ := completed_eightsUnit false
    obtain ⟨package', completed', _, arguments', constants'⟩ := completed_eightsUnit true
    refine ⟨package, completed, package', completed', arguments, arguments',
      .int ⟨4294967288, 32, true, false⟩, .int ⟨4294967288, 32, false, true⟩, ?_, ?_, ?_⟩
    · simp [constants]
    · simp [constants']
    · simp [Value.Same, Value.same, IntValue.same]

end Monomorph
