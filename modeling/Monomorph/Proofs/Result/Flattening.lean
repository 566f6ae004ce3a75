import Monomorph.Proofs.Result.Emitted
import Monomorph.Proofs.Result.References

/-! Flattening and the values of constants.

A constant of a plain package or of a module has in the flattened unit the value that
it has in the source when the constants of instances are read as the literals that
stand for them. The two readings differ only in whether the width of a value counts
as written, and they agree where no literal has to spell a width that its value does
not have written.
-/

set_option autoImplicit false

namespace Monomorph

def Description.scope : Description → Scope
  | .package decl => .package decl.name
  | .module decl => .module decl.name

def Description.constants : Description → List ConstDecl
  | .package decl => decl.items.filterMap PackageItem.const?
  | .module decl => decl.items.filterMap ModuleItem.const?

def SourceUnit.constantReferences (unit : SourceUnit) : List Reference :=
  ((unit.descriptions.filter (!·.isGeneric)).flatMap Description.constants).flatMap ConstDecl.references

theorem mem_filterMap_of_findConst {ι : Type} {const? : ι → Option ConstDecl} {items : List ι}
    {name : String} {index : Nat} {decl : ConstDecl}
    (found : findConst name (items.map const?) = some (index, decl)) : decl ∈ items.filterMap const? := by
  obtain ⟨item, member, is⟩ := List.mem_map.mp (mem_of_findConst found).1
  exact List.mem_filterMap.mpr ⟨item, member, is⟩

namespace Program

variable {unit : SourceUnit} {settings : Settings} {scope : Scope} {name : String} {index : Nat}
  {decl : ConstDecl}

theorem mem_constants_of_findConst (plain : scope.Plain)
    (found : (Program.ofUnit unit settings).findConst scope name = some (index, decl)) :
    ∃ description ∈ unit.descriptions, description.isGeneric = false ∧ decl ∈ description.constants := by
  cases plain with
  | package unreserved =>
    obtain ⟨package, known, found⟩ := Option.bind_eq_some_iff.mp found
    obtain ⟨known, plain⟩ := Option.filter_eq_some_iff.mp known
    rw [package?_ofUnit] at known
    obtain ⟨description, member, is⟩ := Option.bind_eq_some_iff.mp known
    cases description with
    | package body =>
      cases is
      exact ⟨_, List.mem_of_find?_eq_some member, by simpa [Description.isGeneric] using plain,
        mem_filterMap_of_findConst found⟩
    | module body => cases is
  | module unreserved =>
    obtain ⟨body, known, found⟩ := Option.bind_eq_some_iff.mp found
    rw [module?_ofUnit] at known
    obtain ⟨description, member, is⟩ := Option.bind_eq_some_iff.mp known
    cases description with
    | package body => cases is
    | module body =>
      cases is
      exact ⟨_, List.mem_of_find?_eq_some member, rfl, mem_filterMap_of_findConst found⟩

theorem mem_constantReferences (plain : scope.Plain)
    (found : (Program.ofUnit unit settings).findConst scope name = some (index, decl))
    {reference : Reference} (member : reference ∈ decl.references) : reference ∈ unit.constantReferences := by
  obtain ⟨description, listed, notGeneric, constant⟩ := mem_constants_of_findConst plain found
  refine List.mem_flatMap.mpr ⟨decl, List.mem_flatMap.mpr ⟨description, ?_, constant⟩, member⟩
  exact List.mem_filter.mpr ⟨listed, by rw [notGeneric]; rfl⟩

end Program

namespace SourceUnit.Succeeds

variable {unit : SourceUnit} {settings : Settings} {result : InstantiatedUnit}
  {registry : Registry} {reading : Reading} {name : String}

theorem isReserved_of_package? (succeeds : unit.Succeeds settings result) {package : Package}
    (found : (Program.ofUnit unit settings).package? name = some package) : isReserved name = false := by
  rw [Program.package?_ofUnit] at found
  obtain ⟨description, member, _⟩ := Option.bind_eq_some_iff.mp found
  rw [← Description.find?_name member]
  exact succeeds.unreserved description (List.mem_of_find?_eq_some member)

theorem plain?_cases (succeeds : unit.Succeeds settings result) {package : Package}
    (found : (result.flattened settings).plain? name = some package) :
    name ∈ result.packages.map (·.name) ∨ ∃ decl, (Program.ofUnit unit settings).plain? name = some decl := by
  have known := Program.plain?_eq_some found
  unfold InstantiatedUnit.flattened at known
  rw [Program.package?_ofUnit] at known
  obtain ⟨description, member, _⟩ := Option.bind_eq_some_iff.mp known
  have named := Description.find?_name member
  rcases List.mem_append.mp (List.mem_of_find?_eq_some member) with emitted | lowered
  · left
    obtain ⟨instantiated, there, rfl⟩ := List.mem_map.mp emitted
    exact List.mem_map.mpr ⟨instantiated, there, named⟩
  · right
    obtain ⟨source, there, lowers⟩ := exists_left_of_forall₂ (succeeds.lowered _ (.refl _)) lowered
    have unreserved := succeeds.unreserved source (List.mem_of_mem_filter there)
    rw [← lowers.name_eq, named] at unreserved
    have related := succeeds.plain?_rel (.refl _) unreserved
    rw [found] at related
    obtain ⟨decl, known, _⟩ := exists_left_of_rel related
    exact ⟨decl, known⟩

/-- A reference to a generic package is directed at an instance that was completed. -/
theorem directs_emitted (succeeds : unit.Succeeds settings result) {scope : Scope} {position : Nat}
    {reference lowered : Reference} {package : Package}
    (directs : (Program.ofUnit unit settings).Directs result.registry scope position reference lowered)
    (generic : (Program.ofUnit unit settings).generic? reference.package = some package) :
    ∃ bound id, ∃ emitted ∈ result.packages,
      (Program.ofUnit unit settings).Binds result.registry scope position package reference.arguments bound ∧
      result.registry.find? package.name bound = some id ∧ emitted.target = ⟨package.name, id⟩ ∧
      lowered = ⟨emitted.name, [], reference.members, reference.span⟩ := by
  obtain ⟨id, bound, binds, found, _, redirected⟩ := directs.generic generic
  obtain ⟨stored, known, _⟩ := Registry.get?_of_find? found
  obtain ⟨emitted, member, target⟩ := succeeds.emitted _ _ known
  rw [← Program.name_of_generic? generic] at found target redirected
  refine ⟨bound, id, emitted, member, binds, found, target, ?_⟩
  rw [redirected, SpecializedPackage.name, target]
  rfl

/-- Constants of instances are read as their literals. -/
def Reads (unit : SourceUnit) (settings : Settings) (result : InstantiatedUnit) (registry : Registry)
    (reading : Reading) : Prop :=
  ∀ package ∈ result.packages, ∀ name value,
    (Program.ofUnit unit settings).ConstantValue registry .value (.instantiated package.target) name value →
    reading.apply (Program.ofUnit unit settings).emptyEvaluator.defaultWidth value
      = value.relit (Program.ofUnit unit settings).emptyEvaluator.defaultWidth

theorem referenceValue_emitted_iff (succeeds : unit.Succeeds settings result) (flat : Registry)
    (grows : result.registry.Extends registry) (reads : Reads unit settings result registry reading)
    {scope : Scope} {position : Nat} {reference lowered : Reference} {package : Package} {value : Value}
    (directs : (Program.ofUnit unit settings).Directs result.registry scope position reference lowered)
    (generic : (Program.ofUnit unit settings).generic? reference.package = some package) :
    (Program.ofUnit unit settings).ReferenceValue registry reading scope position reference value ↔
      (result.flattened settings).ReferenceValue flat .value scope position lowered value := by
  obtain ⟨bound, id, emitted, member, binds, found, target, rfl⟩ := succeeds.directs_emitted directs generic
  obtain ⟨stands, _, same, plain⟩ := plain?_name settings member
  have named : stands.toPackage.name = emitted.name := congrArg Instance.name same
  constructor
  · intro source
    cases source with
    | plain known none members constant =>
      rw [Program.plain?_of_generic? generic] at known
      cases known
    | instantiated known made values accepted found' members constant =>
      rw [generic] at known
      cases known
      -- the instance read in the source is the one that the reference was directed at
      cases (binds.mono grows).unique ⟨_, _, made, values, accepted⟩
      cases (grows.find? found).symm.trans found'
      refine .plain plain rfl members ?_
      rw [named, succeeds.constantValue_emitted_iff grows member, target]
      exact ⟨_, constant, reads emitted member _ _ (target ▸ constant)⟩
  · intro flattened
    cases flattened with
    | instantiated known made values accepted found' members constant =>
      rw [succeeds.generic?_flattened] at known
      cases known
    | plain known none members constant =>
      rw [plain] at known
      cases known
      rw [named, succeeds.constantValue_emitted_iff grows member] at constant
      obtain ⟨value, constant, rfl⟩ := constant
      rw [← reads emitted member _ _ constant]
      obtain ⟨evaluator, values, made, evaluated, accepted⟩ := binds.mono grows
      exact .instantiated generic made evaluated accepted (grows.find? found) members (target ▸ constant)

theorem evaluator_flattened {flat : Registry} {scope : Scope} (plain : scope.Plain) :
    (result.flattened settings).evaluator flat scope = (Program.ofUnit unit settings).evaluator registry scope := by
  cases plain <;> rfl

theorem plain?_flattened (succeeds : unit.Succeeds settings result) {decl : Package}
    (found : (Program.ofUnit unit settings).plain? name = some decl) :
    ∃ lowered, (result.flattened settings).plain? name = some lowered := by
  have related := succeeds.plain?_rel (.refl _) (succeeds.isReserved_of_package? (Program.plain?_eq_some found))
  rw [found] at related
  obtain ⟨lowered, known, _⟩ := exists_right_of_rel related
  exact ⟨lowered, known⟩

theorem findConst_flattened (succeeds : unit.Succeeds settings result) {scope : Scope} (plain : scope.Plain)
    (name : String) {index : Nat} {decl : ConstDecl}
    (found : (Program.ofUnit unit settings).findConst scope name = some (index, decl)) :
    ∃ lowered, (result.flattened settings).findConst scope name = some (index, lowered) ∧
      decl.Rewrites (.redirecting ((Program.ofUnit unit settings).Directs result.registry scope index)) [] lowered := by
  have related := succeeds.findConst_rel (.refl _) plain name
  rw [found] at related
  obtain ⟨⟨position, lowered⟩, known, rfl, rewrites⟩ := exists_right_of_rel related
  exact ⟨lowered, known, rewrites⟩

/-- Whatever has a value in the source has it in the flattened unit. -/
theorem simulates_flattened (succeeds : unit.Succeeds settings result) (flat : Registry)
    (grows : result.registry.Extends registry) (reads : Reads unit settings result registry reading) :
    (Program.ofUnit unit settings).Simulates (result.flattened settings) registry flat reading .value
      ((Program.ofUnit unit settings).Directs result.registry) where
  evaluator plain made := (evaluator_flattened plain).trans made
  constant plain name := succeeds.findConst_rel (.refl _) plain name
  plain := by
    intro scope position reference lowered package member _ directs found members
    left
    have unreserved := succeeds.isReserved_of_package? (Program.plain?_eq_some found)
    rw [Program.name_of_plain? found]
    cases directs with
    | instantiated generic binds known checked =>
      rw [Program.plain?_of_generic? generic] at found
      cases found
    | plain known none checked =>
      obtain ⟨lowered, there⟩ := succeeds.plain?_flattened found
      have named := Program.name_of_plain? there
      exact ⟨.package unreserved, fun value constant => .plain there none members (named.symm ▸ constant)⟩
    | unknown absent none =>
      rw [Program.plain?_eq_some found] at absent
      cases absent
  instantiated _ directs generic value := (succeeds.referenceValue_emitted_iff _ grows reads directs generic).mp value

/-- Whatever has a value in the flattened unit has it in the source, where no reference was written
with the name of an instance. -/
theorem flattened_simulates (succeeds : unit.Succeeds settings result) (flat : Registry)
    (grows : result.registry.Extends registry) (reads : Reads unit settings result registry reading)
    (apart : ∀ reference ∈ unit.constantReferences, reference.package ∉ result.packages.map (·.name)) :
    (result.flattened settings).Simulates (Program.ofUnit unit settings) flat registry .value reading
      (fun scope position lowered reference =>
        (Program.ofUnit unit settings).Directs result.registry scope position reference lowered ∧
          reference.package ∉ result.packages.map (·.name)) where
  evaluator plain made := (evaluator_flattened plain).symm.trans made
  constant := by
    intro scope plain name
    have related := succeeds.findConst_rel (.refl _) plain name
    generalize found : (Program.ofUnit unit settings).findConst scope name = source at related ⊢
    generalize (result.flattened settings).findConst scope name = lowered at related ⊢
    cases related with
    | none => exact .none
    | some related =>
      obtain ⟨same, rewrites⟩ := related
      apply Option.Rel.some
      refine ⟨same.symm, rewrites.reverse fun reference member target directs => ?_⟩
      rw [same]
      exact ⟨directs, apart reference (Program.mem_constantReferences plain found member)⟩
  plain := by
    rintro scope position lowered reference package member _ ⟨directs, apart⟩ found members
    have named := Program.name_of_plain? found
    -- a package of the flattened unit stands for an instance or for itself
    cases generic : (Program.ofUnit unit settings).generic? reference.package with
    | some source =>
      right
      intro value constant
      rw [succeeds.referenceValue_emitted_iff flat grows reads directs generic]
      obtain ⟨_, _, _, _, _, _, _, rfl⟩ := succeeds.directs_emitted directs generic
      exact .plain found rfl members constant
    | none =>
      left
      have none := directs.arguments_eq_nil generic
      rw [directs.eq_of_plain generic] at found named
      have known : ∃ decl, (Program.ofUnit unit settings).plain? reference.package = some decl := by
        rcases succeeds.plain?_cases found with emitted | known
        · exact absurd emitted apart
        · exact known
      obtain ⟨decl, known⟩ := known
      have unreserved := succeeds.isReserved_of_package? (Program.plain?_eq_some known)
      have named' := Program.name_of_plain? known
      rw [directs.eq_of_plain generic] at members
      rw [named]
      exact ⟨.package unreserved, fun value constant => .plain known none members (named'.symm ▸ constant)⟩
  instantiated := by
    intro scope position lowered reference package value _ _ generic
    rw [succeeds.generic?_flattened] at generic
    cases generic

theorem reads_literal : Reads unit settings result registry .literal :=
  fun _ _ _ _ _ => rfl

theorem reads_value (succeeds : unit.Succeeds settings result) (grows : result.registry.Extends registry)
    (kept : ∀ package ∈ result.packages, ∀ entry ∈ package.constants,
      entry.2.relit (Program.ofUnit unit settings).emptyEvaluator.defaultWidth = entry.2) :
    Reads unit settings result registry .value := by
  intro package member name value denotes
  have specializes := succeeds.completed package member registry grows
  obtain ⟨source, _, generic, _, _⟩ := specializes.body
  obtain ⟨⟨index, decl⟩, declared⟩ := Option.isSome_iff_exists.mp denotes.isSome_findConst
  simp only [Program.findConst, generic, Option.bind_eq_bind, Option.bind_some] at declared
  obtain ⟨is, named⟩ := mem_of_findConst declared
  obtain ⟨item, inside, const⟩ := List.mem_map.mp is
  have item_eq : item = .const decl := by
    cases item <;> cases const
    rfl
  -- the value of a declared constant is among those that were emitted
  obtain ⟨other, listed⟩ := specializes.listed source generic decl (item_eq ▸ inside)
  rw [named] at listed
  cases denotes.unique (specializes.constants name other listed)
  exact (kept package member _ listed).symm

/-- A constant that reads an instance loses its value where the literal cannot be had in the declared type. -/
theorem not_constantValue_of_refused (succeeds : unit.Succeeds settings result) {scope : Scope}
    (plain : scope.Plain) {index : Nat} {kind : IntKind} {reference : Reference} {span : Span} {package : Package}
    {found value : Value} (declared : (Program.ofUnit unit settings).findConst scope name
      = some (index, ⟨name, some (.int kind), .ofReference reference, span⟩))
    (generic : (Program.ofUnit unit settings).generic? reference.package = some package)
    (reads : (Program.ofUnit unit settings).ReferenceValue result.registry .literal scope index reference found)
    (refused : found.coerce? (.int kind.width kind.isSigned) = none) (flat : Registry) :
    ¬(result.flattened settings).ConstantValue flat .value scope name value := by
  intro flattened
  obtain ⟨lowered, stands, rewrites⟩ := succeeds.findConst_flattened plain name declared
  obtain ⟨type, initial⟩ := rewrites.parts
  cases flattened with
  | intro known made evaluated typed converted =>
    rw [stands] at known
    cases known
    generalize lowered.value = expr at initial evaluated
    generalize lowered.type = declared at type typed
    cases initial with
    | reference directs =>
      have literal := (succeeds.referenceValue_emitted_iff flat (.refl _) reads_literal directs generic).mp reads
      cases evaluated.unique (.reference literal)
      cases type with
      | some type =>
        cases type
        cases typed
        rw [Value.convert?, refused] at converted
        cases converted

theorem constantValue_of_emitted_name (succeeds : unit.Succeeds settings result) {scope : Scope}
    (plain : scope.Plain) {index : Nat} {member : String} {site span : Span} {package : SpecializedPackage}
    {value : Value} (emitted : package ∈ result.packages)
    (declared : (Program.ofUnit unit settings).findConst scope name
      = some (index, ⟨name, none, .reference package.name [] [member] site, span⟩))
    (denotes : (Program.ofUnit unit settings).ConstantValue result.registry .value
      (.instantiated package.target) member value) (flat : Registry) :
    (result.flattened settings).ConstantValue flat .value scope name
      (value.relit (Program.ofUnit unit settings).emptyEvaluator.defaultWidth) := by
  obtain ⟨lowered, found, rewrites⟩ := succeeds.findConst_flattened plain name declared
  obtain ⟨type, initial⟩ := rewrites.parts
  have notGeneric : (Program.ofUnit unit settings).generic? package.name = none := by
    cases generic : (Program.ofUnit unit settings).generic? package.name with
    | none => rfl
    | some decl =>
      have unreserved := succeeds.isReserved_of_package? (Program.generic?_eq_some generic)
      rw [SpecializedPackage.name, Instance.isReserved_name] at unreserved
      cases unreserved
  have unchanged : lowered.value = .reference package.name [] [member] site := by
    generalize lowered.value = expr at initial ⊢
    cases initial with
    | reference directs =>
      rw [directs.eq_of_plain notGeneric]
      rfl
  have untyped : lowered.type = none := eq_none_of_rel type
  obtain ⟨stands, _, same, known⟩ := plain?_name settings emitted
  have named : stands.toPackage.name = package.name := congrArg Instance.name same
  have literal : (result.flattened settings).ConstantValue flat .value (.package stands.toPackage.name) member
      (value.relit (Program.ofUnit unit settings).emptyEvaluator.defaultWidth) := by
    rw [named, succeeds.constantValue_emitted_iff (.refl _) emitted]
    exact ⟨value, denotes, rfl⟩
  have evaluated : (result.flattened settings).ExprValue flat .value scope index
      (Program.ofUnit unit settings).emptyEvaluator lowered.value
      (value.relit (Program.ofUnit unit settings).emptyEvaluator.defaultWidth) := by
    rw [unchanged]
    exact .reference (.plain known rfl rfl literal)
  have typed : (result.flattened settings).FixedType flat .value scope index
      (Program.ofUnit unit settings).emptyEvaluator lowered.type none := by
    rw [untyped]
    exact .undeclared
  have made : (result.flattened settings).evaluator flat scope
      = .ok (Program.ofUnit unit settings).emptyEvaluator := by
    cases plain <;> rfl
  exact .intro found made evaluated typed rfl

theorem apart_of_unreserved {references : List Reference}
    (unreserved : ∀ reference ∈ references, isReserved reference.package = false) :
    ∀ reference ∈ references, reference.package ∉ result.packages.map (·.name) := by
  intro reference member emitted
  obtain ⟨package, _, same⟩ := List.mem_map.mp emitted
  have reserved : isReserved reference.package = true := same ▸ package.target.isReserved_name
  rw [unreserved reference member] at reserved
  cases reserved

end SourceUnit.Succeeds

namespace SourceUnit

variable {unit : SourceUnit} {settings : Settings} {result : InstantiatedUnit}

theorem plain_scope (succeeds : unit.Succeeds settings result) {description : Description}
    (member : description ∈ unit.descriptions) : description.scope.Plain := by
  have unreserved := succeeds.unreserved description member
  cases description with
  | package decl => exact .package unreserved
  | module decl => exact .module unreserved

/-- A constant that has a value in the source has the same value in the flattened unit, when constants
of instances are read as the literals that stand for them. If each literal spells its constant as
the constant is, this is the value that the constant has in the source anyway. If no reference is
written with the name of an instance, a constant without a value in the source has none in the
flattened unit. -/
theorem constantValue_flattened (success : unit.instantiate settings = .success result)
    {registry : Registry} (grows : result.registry.Extends registry) (flat : Registry) (reading : Reading)
    (spelled : reading = .literal ∨ ∀ package ∈ result.packages, ∀ entry ∈ package.constants,
      entry.2.relit (Program.ofUnit unit settings).emptyEvaluator.defaultWidth = entry.2)
    {description : Description} (member : description ∈ unit.descriptions) (name : String) (value : Value) :
    ((Program.ofUnit unit settings).ConstantValue registry reading description.scope name value →
      (result.flattened settings).ConstantValue flat .value description.scope name value) ∧
    ((∀ reference ∈ unit.constantReferences, reference.package ∉ result.packages.map (·.name)) →
      ((result.flattened settings).ConstantValue flat .value description.scope name value →
        (Program.ofUnit unit settings).ConstantValue registry reading description.scope name value)) := by
  have succeeds := succeeds_of_instantiate success
  have plain := plain_scope succeeds member
  have reads : Succeeds.Reads unit settings result registry reading := by
    rcases spelled with rfl | kept
    · exact Succeeds.reads_literal
    · cases reading with
      | literal => exact Succeeds.reads_literal
      | value => exact succeeds.reads_value grows kept
  constructor
  · intro source
    exact source.simulated (succeeds.simulates_flattened flat grows reads) plain
  · intro apart flattened
    exact flattened.simulated (succeeds.flattened_simulates flat grows reads apart) plain

theorem constantValue_flattened_sampleUnit :
    ∃ result, sampleUnit.instantiate {} = .success result ∧ ∀ value,
      ((Program.ofUnit sampleUnit {}).ConstantValue result.registry .value (.module "Top") "A" value ↔
        value = .int ⟨3, 32, false, true⟩) ∧
      ((result.flattened {}).ConstantValue .empty .value (.module "Top") "A" value ↔
        value = .int ⟨3, 32, false, true⟩) := by
  have clean : (sampleUnit.run? {} 20).map (·.2.faults.isEmpty) = some true := by decide +kernel
  have numbered : (sampleUnit.run? {} 20).map (·.2.registry)
      = some (.ofRequests [("Bank", [.int ⟨15, 32, false, true⟩]), ("Counter", [.int ⟨15, 32, false, true⟩])]) := by
    decide +kernel
  have emitted : (sampleUnit.run? {} 20).map (·.2.specialized.map fun package => (package.target, package.constants))
      = some [(⟨"Counter", ⟨1, by decide, by decide⟩⟩,
            [("Last", .int ⟨16, 32, false, true⟩), ("Bits", .int ⟨4, 32, false, true⟩)]),
          (⟨"Bank", ⟨1, by decide, by decide⟩⟩, [("Address", .int ⟨4, 32, false, true⟩)])] := by
    decide +kernel
  obtain ⟨result, success, registry, constants⟩ := exists_success_eq clean numbered emitted
  have spelled : ∀ package ∈ result.packages.map fun package => (package.target, package.constants),
      ∀ entry ∈ package.2, entry.2.relit (Program.ofUnit sampleUnit {}).emptyEvaluator.defaultWidth = entry.2 := by
    rw [constants]
    decide
  have unreserved : ∀ reference ∈ sampleUnit.constantReferences, isReserved reference.package = false := by
    decide
  have flattened := constantValue_flattened success (.refl _) .empty .value
    (.inr fun package member => spelled _ (List.mem_map_of_mem member))
    (List.mem_of_getElem? (show sampleUnit.descriptions[2]? = _ from rfl)) "A"
  obtain ⟨bank, member, same⟩ : ∃ package ∈ result.packages, (package.target, package.constants)
      = (⟨"Bank", ⟨1, by decide, by decide⟩⟩, [("Address", .int ⟨4, 32, false, true⟩)]) := by
    rw [← List.mem_map, constants]
    decide
  rw [Prod.mk.injEq] at same
  have source : (Program.ofUnit sampleUnit {}).ConstantValue result.registry .value (.module "Top") "A"
      (.int ⟨3, 32, false, true⟩) := by
    have address := ((succeeds_of_instantiate success).completed bank member _ (.refl _)).constants
      "Address" (.int ⟨4, 32, false, true⟩) (by rw [same.2]; exact List.mem_singleton_self _)
    rw [same.1, registry] at address
    rw [registry]
    exact .intro rfl rfl (.binary (.reference (.instantiated rfl rfl (.cons (.literal rfl) .nil) rfl rfl rfl address))
      (.literal rfl) rfl) .undeclared rfl
  refine ⟨result, success, fun value => ⟨⟨fun other => other.unique source, ?_⟩, ?_, ?_⟩⟩
  · rintro rfl
    exact source
  · intro other
    exact ((flattened value).2 (Succeeds.apart_of_unreserved unreserved) other).unique source
  · rintro rfl
    exact (flattened _).1 source

end SourceUnit

/-- The difference of two wide numbers is zero, but as wide as they are. One constant reads it from an
instance and has a narrower type; the other one names the instance as it will be emitted. -/
def wideUnit : SourceUnit :=
  ⟨"wide",
    [.package ⟨"P", [⟨"N", .const, nowhere⟩],
      [.const ⟨"X", none, .binary .sub (.ident "N") (.ident "N"), nowhere⟩], nowhere⟩,
      .module ⟨"Top",
        [.const ⟨"C", some (.int .u32), .reference "P" [.int 1099511627776] ["X"] nowhere, nowhere⟩,
          .const ⟨"D", none, .reference "__P__1" [] ["X"] nowhere, nowhere⟩], nowhere⟩]⟩

namespace SourceUnit

/-- Zero fits the narrower type while its width is not written. The literal has to write the width, and
the constant loses its value; the other constant gets a value that it did not have. -/
theorem constantValue_flattened_wideUnit :
    ∃ result, wideUnit.instantiate {} = .success result ∧
      ((Program.ofUnit wideUnit {}).ConstantValue result.registry .value (.module "Top") "C"
          (.int ⟨0, 32, false, true⟩) ∧
        ∀ flat value, ¬(result.flattened {}).ConstantValue flat .value (.module "Top") "C" value) ∧
      (∀ registry value,
          ¬(Program.ofUnit wideUnit {}).ConstantValue registry .value (.module "Top") "D" value) ∧
      ∀ flat, (result.flattened {}).ConstantValue flat .value (.module "Top") "D" (.int ⟨0, 41, false, true⟩) := by
  have clean : (wideUnit.run? {} 20).map (·.2.faults.isEmpty) = some true := by decide +kernel
  have numbered : (wideUnit.run? {} 20).map (·.2.registry)
      = some (.ofRequests [("P", [.int ⟨1099511627776, 41, false, false⟩])]) := by
    decide +kernel
  have emitted : (wideUnit.run? {} 20).map (·.2.specialized.map fun package => (package.target, package.constants))
      = some [(⟨"P", ⟨1, by decide, by decide⟩⟩, [("X", .int ⟨0, 41, false, false⟩)])] := by
    decide +kernel
  obtain ⟨result, success, registry, constants⟩ := exists_success_eq clean numbered emitted
  have succeeds := succeeds_of_instantiate success
  have plain : (Scope.module "Top").Plain := .module (by decide)
  have difference : (Program.ofUnit wideUnit {}).ConstantValue result.registry .value
      (.instantiated ⟨"P", ⟨1, by decide, by decide⟩⟩) "X" (.int ⟨0, 41, false, false⟩) := by
    rw [registry]
    exact .intro rfl rfl (.binary (.parameter rfl) (.parameter rfl) rfl) .undeclared rfl
  have reference (reading : Reading) : (Program.ofUnit wideUnit {}).ReferenceValue result.registry reading
      (.module "Top") 0 ⟨"P", [.int 1099511627776], ["X"], nowhere⟩
      (reading.apply 32 (.int ⟨0, 41, false, false⟩)) := by
    rw [registry] at difference ⊢
    exact .instantiated rfl rfl (.cons (.literal rfl) .nil) rfl rfl rfl difference
  obtain ⟨package, member, same⟩ : ∃ package ∈ result.packages, (package.target, package.constants)
      = (⟨"P", ⟨1, by decide, by decide⟩⟩, [("X", .int ⟨0, 41, false, false⟩)]) := by
    rw [← List.mem_map, constants]
    exact List.mem_singleton_self _
  rw [Prod.mk.injEq] at same
  have declared : (Program.ofUnit wideUnit {}).findConst (.module "Top") "D"
      = some (1, ⟨"D", none, .reference package.name [] ["X"] nowhere, nowhere⟩) := by
    rw [SpecializedPackage.name, same.1]
    rfl
  refine ⟨result, success, ⟨.intro rfl rfl (.reference (reference .value)) .int rfl, ?_⟩, ?_, ?_⟩
  · intro flat value
    exact succeeds.not_constantValue_of_refused plain rfl rfl (reference .literal) rfl flat
  · intro registry value source
    cases source with
    | intro found made evaluated typed converted =>
      cases found
      cases evaluated with
      | reference evaluated =>
        cases evaluated with
        | instantiated generic => cases generic
        | plain known => cases known
  · intro flat
    exact succeeds.constantValue_of_emitted_name plain member declared (same.1 ▸ difference) flat

end SourceUnit

end Monomorph
