import Monomorph.Proofs.Lowering.Identity
import Monomorph.Proofs.Result.GenericFree
import Monomorph.Proofs.Result.Insertion
import Monomorph.Proofs.Result.References

/-! Units without generic packages.

There is nothing to instantiate, so all that the pass does is to check names and
references. A unit that passes comes out as it went in; its constants are not looked at,
so they may just as well be cyclic or have no value.
-/

set_option autoImplicit false

namespace Monomorph

theorem reservedFaults_eq_nil_iff {name : String} {site : Span} :
    reservedFaults name site = [] ↔ isReserved name = false :=
  ⟨eq_nil_of_reservedFaults, reservedFaults_eq_nil⟩

namespace Description

def itemNames : Description → List String
  | .package decl => decl.items.map (·.name)
  | .module decl => decl.items.map (·.name)

theorem innerFaults_eq_nil_iff {description : Description} (plain : description.isGeneric = false) :
    description.innerFaults = [] ↔ ∀ name ∈ description.itemNames, isReserved name = false := by
  cases description with
  | package decl =>
    have none : decl.parameters = [] := by simpa [isGeneric, Package.isGeneric] using plain
    simp only [innerFaults, none, List.flatMap_nil, List.nil_append, List.flatMap_eq_nil_iff,
      reservedFaults_eq_nil_iff, itemNames, List.forall_mem_map]
  | module decl =>
    simp only [innerFaults, List.flatMap_eq_nil_iff, reservedFaults_eq_nil_iff, itemNames, List.forall_mem_map]

end Description

theorem SourceUnit.declarationFaults_go_eq_nil_iff {seen : List String} {descriptions : List Description} :
    declarationFaults.go seen descriptions = [] ↔ (descriptions.map (·.name)).Nodup ∧
      ∀ description ∈ descriptions, description.name ∉ seen ∧ isReserved description.name = false ∧
        description.innerFaults = [] := by
  constructor
  · intro none
    obtain ⟨_, nodup, apart⟩ := declarations_of_faults_go none
    refine ⟨nodup, fun description member => ⟨(apart description member).1, (apart description member).2, ?_⟩⟩
    clear * - none member
    induction descriptions generalizing seen with
    | nil => cases member
    | cons first rest ih =>
      rw [declarationFaults.go] at none
      obtain ⟨_, none⟩ := List.append_eq_nil_iff.mp none
      split at none
      · cases none
      · obtain ⟨inner, none⟩ := List.append_eq_nil_iff.mp none
        rcases List.mem_cons.mp member with rfl | later
        · exact inner
        · exact ih none later
  · rintro ⟨nodup, clean⟩
    induction descriptions generalizing seen with
    | nil => rfl
    | cons first rest ih =>
      obtain ⟨fresh, nodup⟩ := List.nodup_cons.mp nodup
      obtain ⟨⟨unseen, unreserved, inner⟩, clean⟩ := List.forall_mem_cons.mp clean
      rw [declarationFaults.go, if_neg unseen, reservedFaults_eq_nil unreserved, inner, List.nil_append,
        List.nil_append]
      refine ih nodup fun description member => ⟨fun listed => ?_, (clean description member).2⟩
      rcases List.mem_cons.mp listed with same | before
      · exact fresh (List.mem_map.mpr ⟨description, member, same⟩)
      · exact (clean description member).1 before

theorem Package.checkMember_eq_ok_iff {package : Package} {reference : Reference} :
    package.checkMember reference = .ok () ↔
      ∀ member ∈ reference.members.head?, member ∈ package.items.map (·.name) := by
  unfold checkMember
  cases reference.members with
  | nil => exact ⟨fun _ => nofun, fun _ => rfl⟩
  | cons member rest =>
    simp only [List.head?_cons, Option.mem_some_iff, forall_eq', ← Package.declares_iff]
    split
    · rename_i declared
      exact iff_of_true rfl declared
    · rename_i missing
      exact iff_of_false nofun missing

section Runs

variable {α β : Type} {program : Program} {state : State} {budget : Nat}

theorem Machine.run_filterMapM_of_all {items : List α} {each : α → Machine (Option β)} {result : α → β}
    (kept : ∀ item ∈ items, (each item).run state = some (some (result item), state)) :
    (items.filterMapM each).run state = some (items.map result, state) := by
  induction items with
  | nil => rfl
  | cons first rest ih =>
    obtain ⟨here, later⟩ := List.forall_mem_cons.mp kept
    rw [List.filterMapM_cons, Machine.run_bind_eq, here]
    show ((rest.filterMapM each) >>= _).run state = _
    rw [Machine.run_bind_eq, ih later]
    rfl

namespace Program

theorem run_lowerOne_pure (empty : state.queue = []) (value : α) :
    (program.lowerOne (budget + 1) (pure value)).run state = some (some value, state) := by
  show (program.drain (budget + 1) >>= fun _ => pure (some value)).run state = some (some value, state)
  rw [Machine.run_bind_eq, run_drain_of_empty _ budget.succ_ne_zero empty]
  rfl

structure Admits (program : Program) (reference : Reference) : Prop where
  bare : reference.arguments = []
  member : ∀ package, program.plain? reference.package = some package → package.checkMember reference = .ok ()

theorem Admits.keeps {reference : Reference} (admits : program.Admits reference)
    (generic : program.generic? reference.package = none) (lookup : Lookup) (context : Context) :
    program.Keeps lookup context reference := by
  unfold Keeps lowerReference target
  rw [generic, admits.bare]
  cases plain : program.plain? reference.package with
  | none => rfl
  | some package =>
    have checked := admits.member package plain
    simp only [pure_bind, checked]
    rfl

theorem specializes_plainContext {scope : Scope} {length position : Nat} {span : Span} {decl : Option ConstDecl} :
    (program.plainContext scope length span position decl).specializes = false := by
  cases decl <;> rfl

variable (generic : ∀ name, program.generic? name = none)

include generic

theorem run_lowerDescription_of_admits (empty : state.queue = []) {description : Description}
    (plain : description.isGeneric = false) (admits : ∀ reference ∈ description.references, program.Admits reference) :
    (program.lowerDescription (budget + 1) description).run state = some (some description, state) := by
  cases description with
  | package decl =>
    have plain : decl.isGeneric = false := plain
    have none : decl.parameters = [] := by simpa [Package.isGeneric] using plain
    have items : ∀ entry ∈ decl.items.zipIdx, (program.lowerOne (budget + 1) (program.lowerPackageItem
        (.ofBudget program (budget + 1)) (program.plainContext (.package decl.name) decl.items.length decl.span entry.2
          entry.1.const?) entry.1)).run state = some (some entry.1, state) := by
      intro entry member
      rw [lowerPackageItem_eq_pure specializes_plainContext, run_lowerOne_pure empty]
      intro reference inside
      refine (admits reference (List.mem_append_right _ ?_)).keeps (generic _) _ _
      exact List.mem_flatMap.mpr ⟨entry.1, List.fst_mem_of_mem_zipIdx member, inside⟩
    have same : (⟨decl.name, [], decl.items, decl.span⟩ : Package) = decl := by rw [← none]
    rw [lowerDescription, if_neg (by rw [plain]; exact Bool.false_ne_true), Machine.run_bind_eq, lowerPackage,
      Machine.run_bind_eq, Machine.run_filterMapM_of_all items, List.zipIdx_map_fst]
    show some (some (Description.package ⟨decl.name, [], decl.items, decl.span⟩), state) = _
    rw [same]
  | module decl =>
    have items : ∀ entry ∈ decl.items.zipIdx, (program.lowerOne (budget + 1) (program.lowerModuleItem
        (.ofBudget program (budget + 1)) (program.plainContext (.module decl.name) decl.items.length decl.span entry.2
          entry.1.const?) entry.1)).run state = some (some entry.1, state) := by
      intro entry member
      rw [lowerModuleItem_eq_pure specializes_plainContext, run_lowerOne_pure empty]
      intro reference inside
      refine (admits reference ?_).keeps (generic _) _ _
      exact List.mem_flatMap.mpr ⟨entry.1, List.fst_mem_of_mem_zipIdx member, inside⟩
    rw [lowerDescription, Machine.run_bind_eq, lowerModule, Machine.run_bind_eq, Machine.run_filterMapM_of_all items,
      List.zipIdx_map_fst]
    rfl

theorem run_lowerAll_of_admits (empty : state.queue = [])
    (plain : ∀ description ∈ program.descriptions, description.isGeneric = false)
    (admits : ∀ description ∈ program.descriptions, ∀ reference ∈ description.references, program.Admits reference) :
    (program.lowerAll (budget + 1)).run state = some (program.descriptions, state) := by
  have walked : (program.descriptions.filterMapM (program.lowerDescription (budget + 1))).run state
      = some (program.descriptions.map id, state) :=
    Machine.run_filterMapM_of_all fun description member =>
      run_lowerDescription_of_admits generic empty (plain description member) (admits description member)
  rw [lowerAll, Machine.run_bind_eq, walked, List.map_id]
  show (program.drain (budget + 1) >>= fun _ => pure program.descriptions).run state = some (program.descriptions, state)
  rw [Machine.run_bind_eq, run_drain_of_empty _ budget.succ_ne_zero empty]
  rfl

end Program
end Runs

theorem exists_mem_flatMap_zipIdx {α β : Type} {items : List α} {parts : α → List β} {label : α × Nat → Nat} {part : β}
    (member : part ∈ items.flatMap parts) :
    ∃ place, (place, part) ∈ items.zipIdx.flatMap fun entry => (parts entry.1).map (Prod.mk (label entry)) := by
  obtain ⟨item, listed, inside⟩ := List.mem_flatMap.mp member
  obtain ⟨index, there⟩ := List.mem_iff_getElem?.mp listed
  refine ⟨label (item, index), List.mem_flatMap.mpr ⟨(item, index), ?_, List.mem_map_of_mem inside⟩⟩
  exact List.mk_mem_zipIdx_iff_getElem?.mpr there

namespace SourceUnit

structure InOrder (unit : SourceUnit) : Prop where
  distinct : (unit.descriptions.map (·.name)).Nodup
  unreserved : ∀ description ∈ unit.descriptions,
    isReserved description.name = false ∧ ∀ name ∈ description.itemNames, isReserved name = false
  bare : ∀ reference : Reference, reference.Occurs unit.references → reference.arguments = []
  members : ∀ reference : Reference, reference.Occurs unit.references →
    ∀ package, .package package ∈ unit.descriptions → package.name = reference.package →
      ∀ member ∈ reference.members.head?, member ∈ package.items.map (·.name)

variable {unit : SourceUnit} {settings : Settings} {result : InstantiatedUnit}

theorem isGeneric_of_plain (plain : ∀ package, .package package ∈ unit.descriptions → package.parameters = []) :
    ∀ description ∈ unit.descriptions, description.isGeneric = false := by
  intro description member
  cases description with
  | package decl => simp [Description.isGeneric, Package.isGeneric, plain decl member]
  | module decl => rfl

theorem generic?_of_plain (plain : ∀ description ∈ unit.descriptions, description.isGeneric = false) (name : String) :
    (Program.ofUnit unit settings).generic? name = none := by
  unfold Program.generic?
  rw [Program.package?_ofUnit]
  cases found : unit.descriptions.find? (·.name = name) with
  | none => rfl
  | some description =>
    have ungeneric := plain description (List.mem_of_find?_eq_some found)
    cases description with
    | module decl => rfl
    | package decl =>
      have ungeneric : decl.isGeneric = false := ungeneric
      simp [Description.package?, ungeneric]

theorem mem_of_plain? {name : String} {package : Package}
    (found : (Program.ofUnit unit settings).plain? name = some package) :
    .package package ∈ unit.descriptions ∧ package.name = name := by
  obtain ⟨found, _⟩ := Option.filter_eq_some_iff.mp found
  rw [Program.package?_ofUnit] at found
  obtain ⟨description, there, packaged⟩ := Option.bind_eq_some_iff.mp found
  cases description with
  | module decl => cases packaged
  | package decl =>
    cases packaged
    exact ⟨List.mem_of_find?_eq_some there, Description.find?_name there⟩

theorem declarationFaults_of_success (success : unit.instantiate settings = .success result) :
    unit.declarationFaults = [] := by
  obtain ⟨budget, final, ran, clean, _⟩ := exists_run?_of_success success
  exact ((run?_ends ran).2 clean).1

/-- What is in order goes through, and comes out as it was. -/
theorem InOrder.instantiate_eq (inOrder : unit.InOrder)
    (plain : ∀ description ∈ unit.descriptions, description.isGeneric = false) (settings : Settings) :
    unit.instantiate settings = .success ⟨unit.name, unit.descriptions, [], .empty⟩ := by
  have clean : unit.declarationFaults = [] := declarationFaults_go_eq_nil_iff.mpr
    ⟨inOrder.distinct, fun description member => ⟨List.not_mem_nil, (inOrder.unreserved description member).1,
      (Description.innerFaults_eq_nil_iff (plain description member)).mpr (inOrder.unreserved description member).2⟩⟩
  have whole : unit.distinct = unit.descriptions := (declarations_of_faults_go clean).1
  have start : State.ofUnit unit = .initial := by
    rw [State.ofUnit, clean]
    rfl
  have admits : ∀ description ∈ unit.descriptions, ∀ reference ∈ description.references,
      (Program.ofUnit unit settings).Admits reference := by
    intro description member reference inside
    have occurs : reference.Occurs unit.references := .here (List.mem_flatMap.mpr ⟨description, member, inside⟩)
    refine ⟨inOrder.bare reference occurs, fun package found => ?_⟩
    obtain ⟨declared, named⟩ := mem_of_plain? found
    exact Package.checkMember_eq_ok_iff.mpr (inOrder.members reference occurs package declared named)
  have same : (Program.ofUnit unit settings).descriptions = unit.descriptions := whole
  have ran : unit.run? settings 1 = some (unit.descriptions, .initial) := by
    rw [run?, start, Program.run_lowerAll_of_admits (generic?_of_plain plain) rfl (same ▸ plain) (same ▸ admits), same]
  exact instantiate_eq_success ran rfl

theorem exists_mem_sites {description : Description} (plain : description.isGeneric = false) {reference : Reference}
    (member : reference ∈ description.references) : ∃ position, (position, reference) ∈ description.sites := by
  cases description with
  | package decl =>
    have none : decl.parameters = [] := by simpa [Description.isGeneric, Package.isGeneric] using plain
    have member : reference ∈ decl.parameters.flatMap (·.type.references) ++ decl.items.flatMap (·.references) := member
    rw [none] at member
    exact exists_mem_flatMap_zipIdx member
  | module decl => exact exists_mem_flatMap_zipIdx member

/-- What goes through is in order: lowering has directed every reference. -/
theorem inOrder_of_success (plain : ∀ description ∈ unit.descriptions, description.isGeneric = false)
    (success : unit.instantiate settings = .success result) : unit.InOrder := by
  have succeeds := succeeds_of_instantiate success
  obtain ⟨nodup, clean⟩ := declarationFaults_go_eq_nil_iff.mp (declarationFaults_of_success success)
  have admitted {reference : Reference} (member : reference ∈ unit.references) :
      (Program.ofUnit unit settings).Admits reference := by
    obtain ⟨description, declared, inside⟩ := List.mem_flatMap.mp member
    obtain ⟨position, site⟩ := exists_mem_sites (plain description declared) inside
    have listed : description ∈ unit.descriptions.filter (!·.isGeneric) :=
      List.mem_filter.mpr ⟨declared, by rw [plain description declared]; rfl⟩
    obtain ⟨lowered, _, lowers⟩ := exists_right_of_forall₂ (succeeds.lowered _ (.refl _)) listed
    obtain ⟨_, _, directs⟩ := exists_right_of_forall₂ lowers.references site
    cases directs with
    | instantiated found binds numbered checked =>
      rw [generic?_of_plain plain] at found
      cases found
    | plain found bare checked =>
      refine ⟨bare, fun package other => ?_⟩
      cases found.symm.trans other
      exact checked
    | unknown absent bare =>
      refine ⟨bare, fun package other => ?_⟩
      rw [Program.plain?, absent] at other
      cases other
  have outermost {reference : Reference} (occurs : reference.Occurs unit.references) : reference ∈ unit.references :=
    occurs.mem fun outer member => by rw [(admitted member).bare, Expr.listReferences]
  refine ⟨nodup, fun description member => ?_, fun reference occurs => (admitted (outermost occurs)).bare, ?_⟩
  · obtain ⟨_, unreserved, inner⟩ := clean description member
    exact ⟨unreserved, (Description.innerFaults_eq_nil_iff (plain description member)).mp inner⟩
  · rintro reference occurs package declared named
    have known := succeeds.package?_eq declared
    have found : (Program.ofUnit unit settings).plain? reference.package = some package := by
      rw [Program.plain?, ← named, known]
      have ungeneric : package.isGeneric = false := plain _ declared
      simp [ungeneric]
    exact Package.checkMember_eq_ok_iff.mp ((admitted (outermost occurs)).member package found)

/-- A unit without generic packages passes exactly when it is in order, and is not changed then. -/
theorem instantiate_iff_inOrder_of_plain
    (plain : ∀ package, .package package ∈ unit.descriptions → package.parameters = []) (settings : Settings) :
    ((∃ result, unit.instantiate settings = .success result) ↔ unit.InOrder) ∧
      ∀ result, unit.instantiate settings = .success result →
        result = ⟨unit.name, unit.descriptions, [], .empty⟩ := by
  have plain := isGeneric_of_plain plain
  refine ⟨⟨fun ⟨result, success⟩ => inOrder_of_success plain success, fun inOrder =>
    ⟨_, inOrder.instantiate_eq plain settings⟩⟩, fun result success => ?_⟩
  have unchanged := (inOrder_of_success plain success).instantiate_eq plain settings
  rw [success] at unchanged
  cases unchanged
  rfl

def idlePackage : Package :=
  ⟨"Flags", [],
    [.const ⟨"Loop", none, .reference "Flags" [] ["Loop"] nowhere, nowhere⟩,
      .const ⟨"Broken", some .bool, .binary .div (.int 1) (.int 0), nowhere⟩], nowhere⟩

def idleUnit : SourceUnit :=
  ⟨"idle",
    [.package idlePackage,
      .module ⟨"Top",
        [.const ⟨"A", none, .binary .add (.reference "Flags" [] ["Loop"] nowhere) (.ident "B"), nowhere⟩,
          .var "word" (.reference ⟨"Elsewhere", [], ["Word"], nowhere⟩),
          .var "flag" (.logic (some (.reference "Flags" [] ["Broken", "Width"] nowhere)))],
        nowhere⟩]⟩

theorem instantiate_idleUnit :
    idleUnit.instantiate {} = .success ⟨"idle", idleUnit.descriptions, [], .empty⟩ := by
  have only : ∀ package, .package package ∈ idleUnit.descriptions → package = idlePackage := by
    simp [idleUnit]
  have plain : ∀ package, .package package ∈ idleUnit.descriptions → package.parameters = [] := by
    intro package declared
    rw [only package declared]
    rfl
  have flat : ∀ outer ∈ idleUnit.references, outer.arguments.isEmpty = true := by decide +kernel
  have bare {reference : Reference} (occurs : reference.Occurs idleUnit.references) : reference ∈ idleUnit.references :=
    occurs.mem fun outer member => by rw [List.isEmpty_iff.mp (flat outer member), Expr.listReferences]
  have inOrder : idleUnit.InOrder := by
    refine ⟨by decide +kernel, by decide +kernel, fun reference occurs => ?_, ?_⟩
    · exact List.isEmpty_iff.mp (flat reference (bare occurs))
    · intro reference occurs package declared named
      have members : ∀ reference ∈ idleUnit.references, idlePackage.name = reference.package →
          ∀ member ∈ reference.members.head?, member ∈ idlePackage.items.map (·.name) := by decide +kernel
      cases only package declared
      exact members reference (bare occurs) named
  obtain ⟨passes, unchanged⟩ := instantiate_iff_inOrder_of_plain plain {}
  obtain ⟨result, success⟩ := passes.mpr inOrder
  rw [success, unchanged result success]
  rfl

end SourceUnit
end Monomorph
