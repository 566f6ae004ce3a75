import Monomorph.Proofs.Lowering.Simulation
import Monomorph.Proofs.Result.Success

/-! Names in a flattened unit.

The flattened unit holds the instances under their generated names, then the lowered
descriptions. What a source name stands for there is what it stands for in the
source, lowered, and a generated name stands for an instance.
-/

set_option autoImplicit false

namespace Monomorph

namespace SourceUnit

theorem findSome?_distinct_go {β : Type} {name : String} {pick : Description → Option β}
    (only : ∀ description : Description, description.name ≠ name → pick description = none)
    (seen : List String) (descriptions : List Description) :
    (distinct.go seen descriptions).findSome? pick
      = if name ∈ seen then none else (descriptions.find? (·.name = name)).bind pick := by
  induction descriptions generalizing seen with
  | nil => simp [distinct.go]
  | cons first rest ih =>
    rw [distinct.go]
    by_cases here : first.name = name
    · by_cases known : name ∈ seen
      · rw [if_pos (here ▸ known), ih, if_pos known, if_pos known]
      · rw [if_neg (here ▸ known), List.findSome?_cons, ih, if_neg known]
        simp only [here, List.mem_cons_self, if_true, List.find?_cons, decide_true]
        cases picked : pick first <;> simp [picked]
    · have skipped : (first :: rest).find? (·.name = name) = rest.find? (·.name = name) := by
        simp [here]
      by_cases known : first.name ∈ seen
      · rw [if_pos known, ih, skipped]
      · have same : name ∈ first.name :: seen ↔ name ∈ seen := by
          simp [Ne.symm here]
        rw [if_neg known, List.findSome?_cons, only first here, ih, skipped]
        simp only [same]

end SourceUnit

namespace Description

def package? : Description → Option Package
  | .package decl => some decl
  | .module _ => none

def module? : Description → Option Module
  | .package _ => none
  | .module decl => some decl

theorem find?_name {descriptions : List Description} {name : String} {description : Description}
    (found : descriptions.find? (·.name = name) = some description) : description.name = name := by
  simpa using List.find?_some found

/-- Among plain descriptions a name stands for what it stands for among all of them, if that is plain. -/
theorem find?_plain {descriptions : List Description} (nodup : (descriptions.map (·.name)).Nodup)
    (name : String) :
    (descriptions.filter (!·.isGeneric)).find? (·.name = name)
      = (descriptions.find? (·.name = name)).filter (!·.isGeneric) := by
  induction descriptions with
  | nil => rfl
  | cons first rest ih =>
    obtain ⟨fresh, nodup⟩ := List.nodup_cons.mp nodup
    have rest_eq := ih nodup
    by_cases here : first.name = name
    · have absent : (rest.filter (!·.isGeneric)).find? (·.name = name) = none := by
        rw [List.find?_eq_none]
        intro other member
        simp only [decide_eq_true_eq]
        intro same
        exact fresh (List.mem_map.mpr ⟨other, List.mem_of_mem_filter member, same.trans here.symm⟩)
      cases generic : first.isGeneric <;> simp [generic, here, absent, Option.filter_some]
    · cases generic : first.isGeneric <;> simp [generic, here, rest_eq]

end Description

namespace Program

variable {unit : SourceUnit} {settings : Settings} {name : String}

theorem package?_ofUnit (unit : SourceUnit) (settings : Settings) (name : String) :
    (Program.ofUnit unit settings).package? name
      = (unit.descriptions.find? (·.name = name)).bind Description.package? := by
  unfold package?
  apply (@SourceUnit.findSome?_distinct_go Package name _ ?_ [] unit.descriptions).trans
  · cases found : unit.descriptions.find? (·.name = name) with
    | none => rfl
    | some description =>
      have named := Description.find?_name found
      cases description with
      | package decl => exact if_pos named
      | module decl => rfl
  · intro description other
    cases description with
    | package decl => exact if_neg other
    | module decl => rfl

theorem module?_ofUnit (unit : SourceUnit) (settings : Settings) (name : String) :
    (Program.ofUnit unit settings).module? name
      = (unit.descriptions.find? (·.name = name)).bind Description.module? := by
  unfold module?
  apply (@SourceUnit.findSome?_distinct_go Module name _ ?_ [] unit.descriptions).trans
  · cases found : unit.descriptions.find? (·.name = name) with
    | none => rfl
    | some description =>
      have named := Description.find?_name found
      cases description with
      | package decl => rfl
      | module decl => exact if_pos named
  · intro description other
    cases description with
    | package decl => rfl
    | module decl => exact if_neg other

theorem Lowers.name_eq {program : Program} {registry : Registry} {source lowered : Description}
    (lowers : program.Lowers registry source lowered) : lowered.name = source.name := by
  cases lowers <;> rfl

theorem find?_lowers {program : Program} {registry : Registry} {sources lowered : List Description}
    (all : List.Forall₂ (program.Lowers registry) sources lowered) (name : String) :
    Option.Rel (program.Lowers registry) (sources.find? (·.name = name)) (lowered.find? (·.name = name)) := by
  induction all with
  | nil => exact .none
  | cons here _ ih =>
    rename_i source result _ _ _
    by_cases same : source.name = name
    · simp only [List.find?_cons, here.name_eq, same, decide_true]
      exact .some here
    · simp only [List.find?_cons, here.name_eq, same, decide_false]
      exact ih

variable {program : Program} {registry : Registry} {source lowered : Option Description}

theorem rel_plain_of_lowers
    (related : Option.Rel (program.Lowers registry) (source.filter (!·.isGeneric)) lowered) :
    Option.Rel (fun decl lowered => program.Lowers registry (.package decl) (.package lowered))
      ((source.bind Description.package?).filter (!·.isGeneric))
      ((lowered.bind Description.package?).filter (!·.isGeneric)) := by
  cases source with
  | none =>
    cases related
    exact .none
  | some description =>
    rw [Option.filter_some] at related
    cases description with
    | package decl =>
      rw [Option.bind_some, Description.package?, Option.filter_some]
      rw [Description.isGeneric] at related
      cases generic : decl.isGeneric with
      | false =>
        rw [generic] at related
        cases related with
        | some lowers =>
          cases lowers with
          | package items => exact .some (.package items)
      | true =>
        rw [generic] at related
        cases related
        exact .none
    | module decl =>
      cases related with
      | some lowers =>
        cases lowers
        exact .none

theorem rel_module_of_lowers
    (related : Option.Rel (program.Lowers registry) (source.filter (!·.isGeneric)) lowered) :
    Option.Rel (fun decl lowered => program.Lowers registry (.module decl) (.module lowered))
      (source.bind Description.module?) (lowered.bind Description.module?) := by
  cases source with
  | none =>
    cases related
    exact .none
  | some description =>
    rw [Option.filter_some] at related
    cases description with
    | package decl =>
      rw [Description.isGeneric] at related
      cases generic : decl.isGeneric with
      | false =>
        rw [generic] at related
        cases related with
        | some lowers =>
          cases lowers
          exact .none
      | true =>
        rw [generic] at related
        cases related
        exact .none
    | module decl =>
      cases related with
      | some lowers =>
        cases lowers with
        | module items => exact .some (.module items)

end Program

def InstantiatedUnit.flattened (result : InstantiatedUnit) (settings : Settings) : Program :=
  .ofUnit result.toSourceUnit settings

namespace SourceUnit.Succeeds

variable {unit : SourceUnit} {settings : Settings} {result : InstantiatedUnit} {registry : Registry}
  {name : String}

theorem find?_toSourceUnit (unreserved : isReserved name = false) :
    result.toSourceUnit.descriptions.find? (·.name = name) = result.descriptions.find? (·.name = name) := by
  have absent : (result.packages.map (Description.package ·.toPackage)).find? (·.name = name) = none := by
    rw [List.find?_eq_none]
    intro description member
    obtain ⟨package, _, rfl⟩ := List.mem_map.mp member
    simp only [decide_eq_true_eq]
    intro same
    have reserved := package.target.isReserved_name
    rw [show package.target.name = name from same, unreserved] at reserved
    cases reserved
  simp only [InstantiatedUnit.toSourceUnit, List.find?_append, absent, Option.none_or]

theorem find?_rel (succeeds : unit.Succeeds settings result) (grows : result.registry.Extends registry)
    (unreserved : isReserved name = false) :
    Option.Rel ((Program.ofUnit unit settings).Lowers registry)
      ((unit.descriptions.find? (·.name = name)).filter (!·.isGeneric))
      (result.toSourceUnit.descriptions.find? (·.name = name)) := by
  rw [find?_toSourceUnit unreserved, ← Description.find?_plain succeeds.nodup]
  exact Program.find?_lowers (succeeds.lowered registry grows) name

theorem plain?_rel (succeeds : unit.Succeeds settings result) (grows : result.registry.Extends registry)
    (unreserved : isReserved name = false) :
    Option.Rel (fun decl lowered =>
        (Program.ofUnit unit settings).Lowers registry (.package decl) (.package lowered))
      ((Program.ofUnit unit settings).plain? name) ((result.flattened settings).plain? name) := by
  have related := succeeds.find?_rel grows unreserved
  unfold InstantiatedUnit.flattened Program.plain?
  rw [Program.package?_ofUnit, Program.package?_ofUnit]
  exact Program.rel_plain_of_lowers related

theorem module?_rel (succeeds : unit.Succeeds settings result) (grows : result.registry.Extends registry)
    (unreserved : isReserved name = false) :
    Option.Rel (fun decl lowered =>
        (Program.ofUnit unit settings).Lowers registry (.module decl) (.module lowered))
      ((Program.ofUnit unit settings).module? name) ((result.flattened settings).module? name) := by
  have related := succeeds.find?_rel grows unreserved
  unfold InstantiatedUnit.flattened
  rw [Program.module?_ofUnit, Program.module?_ofUnit]
  exact Program.rel_module_of_lowers related

theorem generic?_flattened (succeeds : unit.Succeeds settings result) (name : String) :
    (result.flattened settings).generic? name = none := by
  unfold InstantiatedUnit.flattened Program.generic?
  rw [Program.package?_ofUnit]
  cases found : result.toSourceUnit.descriptions.find? (·.name = name) with
  | none => rfl
  | some description =>
    cases description with
    | module decl => rfl
    | package decl =>
      have plain : decl.isGeneric = false := by
        rcases List.mem_append.mp (List.mem_of_find?_eq_some found) with emitted | lowered
        · obtain ⟨package, _, same⟩ := List.mem_map.mp emitted
          cases same
          rfl
        · obtain ⟨source, _, lowers⟩ := exists_left_of_forall₂ (succeeds.lowered _ (.refl _)) lowered
          cases lowers
          rfl
      simp [Description.package?, Option.filter_some, plain]

variable (settings) in
theorem plain?_name {package : SpecializedPackage} (member : package ∈ result.packages) :
    ∃ emitted ∈ result.packages, emitted.target = package.target ∧
      (result.flattened settings).plain? package.name = some emitted.toPackage := by
  have present : ((result.packages.map (Description.package ·.toPackage)).find?
      (·.name = package.name)).isSome := by
    rw [List.find?_isSome]
    exact ⟨_, List.mem_map_of_mem member, decide_eq_true rfl⟩
  obtain ⟨description, found⟩ := Option.isSome_iff_exists.mp present
  obtain ⟨emitted, there, same⟩ := List.mem_map.mp (List.mem_of_find?_eq_some found)
  have named : emitted.target.name = package.target.name := by
    have := Description.find?_name found
    rw [← same] at this
    exact this
  refine ⟨emitted, there, Instance.name_injective named, ?_⟩
  unfold InstantiatedUnit.flattened Program.plain?
  rw [Program.package?_ofUnit]
  simp only [InstantiatedUnit.toSourceUnit, List.find?_append, found, Option.some_or, Option.bind_some, ← same]
  rfl

end SourceUnit.Succeeds

section Constants

/-- Bodies whose constants are related have related constants of each name, at the same position. -/
theorem findConst_rel {ι : Type} (const? : ι → Option ConstDecl)
    (related : Nat → ConstDecl → ConstDecl → Prop) {items lowered : List ι}
    (named : ∀ index decl decl', related index decl decl' → decl'.name = decl.name)
    (all : List.Forall₂ (fun entry item => Option.Rel (related entry.2) (const? entry.1) (const? item))
      items.zipIdx lowered) (name : String) :
    Option.Rel (fun found found' => found'.1 = found.1 ∧ related found.1 found.2 found'.2)
      (findConst name (items.map const?)) (findConst name (lowered.map const?)) := by
  have walk (pick : Option ConstDecl × Nat → Option (Nat × ConstDecl))
      (skips : ∀ index, pick (none, index) = none)
      (picks : ∀ decl index, pick (some decl, index) = if decl.name = name then some (index, decl) else none)
      (start : Nat) {items lowered : List ι}
      (all : List.Forall₂ (fun entry item => Option.Rel (related entry.2) (const? entry.1) (const? item))
        (items.zipIdx start) lowered) :
      Option.Rel (fun found found' => found'.1 = found.1 ∧ related found.1 found.2 found'.2)
        (((items.map const?).zipIdx start).findSome? pick)
        (((lowered.map const?).zipIdx start).findSome? pick) := by
    induction items generalizing start lowered with
    | nil =>
      cases all
      exact .none
    | cons first rest ih =>
      cases all with
      | cons here others =>
        rename_i first' rest'
        simp only [List.map_cons, List.zipIdx_cons, List.findSome?_cons]
        simp only at here
        generalize const? first = source at here ⊢
        generalize const? first' = target at here ⊢
        cases here with
        | none =>
          rw [skips]
          exact ih (start + 1) others
        | some decls =>
          rename_i decl decl'
          rw [picks, picks, named _ _ _ decls]
          by_cases same : decl.name = name
          · rw [if_pos same, if_pos same]
            exact .some ⟨rfl, decls⟩
          · rw [if_neg same, if_neg same]
            exact ih (start + 1) others
  exact walk _ (fun _ => rfl) (fun _ _ => rfl) 0 all

variable {rewriting : Rewriting} {hidden : List String}

theorem PackageItem.Rewrites.const?_rel {item lowered : PackageItem}
    (rewrites : item.Rewrites rewriting hidden lowered) :
    Option.Rel (ConstDecl.Rewrites rewriting hidden) item.const? lowered.const? := by
  cases rewrites with
  | const decl => exact .some decl
  | typeDef type => exact .none
  | struct fields => exact .none
  | enum base variants => exact .none
  | function decl => exact .none

theorem ModuleItem.Rewrites.const?_rel {item lowered : ModuleItem}
    (rewrites : item.Rewrites rewriting hidden lowered) :
    Option.Rel (ConstDecl.Rewrites rewriting hidden) item.const? lowered.const? := by
  cases rewrites with
  | const decl => exact .some decl
  | declare type value => exact .none
  | var type => exact .none

theorem ConstDecl.Rewrites.name_eq {decl lowered : ConstDecl}
    (rewrites : decl.Rewrites rewriting hidden lowered) : lowered.name = decl.name := by
  cases rewrites
  rfl

end Constants

namespace Program

variable {program : Program} {registry : Registry} {scope : Scope} {length position : Nat}

theorem rel_visible {source lowered : Option ConstDecl}
    (related : Option.Rel (ConstDecl.Rewrites (.redirecting
      (program.Directs registry scope (visible length position source))) []) source lowered) :
    Option.Rel (ConstDecl.Rewrites (.redirecting (program.Directs registry scope position)) [])
      source lowered := by
  cases related with
  | none => exact .none
  | some decl => exact .some decl

theorem Lowers.findConst_package {decl lowered : Package} (name : String)
    (lowers : program.Lowers registry (.package decl) (.package lowered)) :
    Option.Rel (fun found found' => found'.1 = found.1 ∧ found.2.Rewrites
        (.redirecting (program.Directs registry (.package decl.name) found.1)) [] found'.2)
      (decl.findConst name) (lowered.findConst name) := by
  cases lowers with
  | package items =>
    apply findConst_rel PackageItem.const?
      fun index => ConstDecl.Rewrites (.redirecting (program.Directs registry _ index)) []
    · exact fun _ _ _ rewrites => rewrites.name_eq
    · exact items.imp fun _ _ rewrites => rel_visible rewrites.const?_rel

theorem Lowers.findConst_module {decl lowered : Module} (name : String)
    (lowers : program.Lowers registry (.module decl) (.module lowered)) :
    Option.Rel (fun found found' => found'.1 = found.1 ∧ found.2.Rewrites
        (.redirecting (program.Directs registry (.module decl.name) found.1)) [] found'.2)
      (decl.findConst name) (lowered.findConst name) := by
  cases lowers with
  | module items =>
    apply findConst_rel ModuleItem.const?
      fun index => ConstDecl.Rewrites (.redirecting (program.Directs registry _ index)) []
    · exact fun _ _ _ rewrites => rewrites.name_eq
    · exact items.imp fun _ _ rewrites => rel_visible rewrites.const?_rel

end Program

/-- In plain text, the flattened unit has the constants of the source, lowered. -/
theorem SourceUnit.Succeeds.findConst_rel {unit : SourceUnit} {settings : Settings}
    {result : InstantiatedUnit} {registry : Registry} {scope : Scope}
    (succeeds : unit.Succeeds settings result) (grows : result.registry.Extends registry)
    (plain : scope.Plain) (name : String) :
    Option.Rel (fun found found' => found'.1 = found.1 ∧ found.2.Rewrites
        (.redirecting ((Program.ofUnit unit settings).Directs registry scope found.1)) [] found'.2)
      ((Program.ofUnit unit settings).findConst scope name) ((result.flattened settings).findConst scope name) := by
  cases plain with
  | package unreserved =>
    rename_i package
    have related := succeeds.plain?_rel grows unreserved
    simp only [Program.findConst]
    cases found : (Program.ofUnit unit settings).plain? package with
    | none =>
      rw [found] at related
      rw [eq_none_of_rel related]
      exact .none
    | some decl =>
      have named := Program.name_of_plain? found
      rw [found] at related
      obtain ⟨lowered, known, lowers⟩ := exists_right_of_rel related
      rw [known, ← named]
      exact lowers.findConst_package name
  | module unreserved =>
    rename_i decl
    have related := succeeds.module?_rel grows unreserved
    simp only [Program.findConst]
    cases found : (Program.ofUnit unit settings).module? decl with
    | none =>
      rw [found] at related
      rw [eq_none_of_rel related]
      exact .none
    | some body =>
      have named := (Program.module_mem_of_module? found).2
      rw [found] at related
      obtain ⟨lowered, known, lowers⟩ := exists_right_of_rel related
      rw [known, ← named]
      exact lowers.findConst_module name

end Monomorph
