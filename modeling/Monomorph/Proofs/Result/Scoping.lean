import Monomorph.Proofs.Lowering.Occurrences
import Monomorph.Proofs.Result.Bodies

/-! Scopes in specialized packages.

The parameters of a generic package are bound in each of its instances, so that none of
their names is left where it would have to be looked up: an identifier of such a name
stands in the scope of a function parameter or a local of that name. What is in such a
scope in the generic package is left as it is.
-/

set_option autoImplicit false

namespace Monomorph

theorem Expr.Literally.at?_ne_ident {expr : Expr} (literally : expr.Literally) (path : List Step) (name : String) :
    expr.at? path ≠ some (.ident name) := by
  intro found
  have mentioned : expr.mentions [name] = true := Expr.mentions_of_at? found (by simp [Expr.mentions])
  cases literally <;> cases mentioned

theorem Context.mem_hidden {context : Context} {name : String} (specializes : context.specializes = true)
    (bound : (context.evaluator.bindings.get? name).isSome) (unreplaced : context.parameter? name = none) :
    name ∈ context.hidden := by
  unfold parameter? at unreplaced
  split at unreplaced
  · rw [unreplaced] at bound
    cases bound
  · rename_i other
    simpa [specializes] using other

namespace Program

variable {program : Program} {registry : Registry} {context : Context} {hidden : List String}

theorem parameter?_of_identifier {source name : String} {path : List Step}
    (found : (identifier context hidden source).at? path = some (.ident name)) :
    ({ context with hidden := hidden } : Context).parameter? name = none := by
  unfold identifier at found
  split at found
  · exact absurd found ((Value.literally_toExpr _ _).at?_ne_ident path name)
  · rename_i unbound
    have mentioned : (Expr.ident source).mentions [name] = true := Expr.mentions_of_at? found (by simp [Expr.mentions])
    rw [Expr.mentions, List.contains_iff_mem, List.mem_singleton] at mentioned
    rw [← mentioned]
    exact unbound

theorem folds_spares (hidden : List String) (expr : Expr)
    (folds : (program.rewriting registry context).folds hidden expr = true) : expr.mentions hidden = false := by
  simp only [rewriting, Context.folds, Bool.and_eq_true, Bool.not_eq_true'] at folds
  exact folds.2

theorem parameter?_of_becomes {expr lowered : Expr} {path : List Step} {name : String}
    (becomes : expr.Becomes (program.rewriting registry context) hidden lowered)
    (found : lowered.at? path = some (.ident name)) :
    ({ context with hidden := hidden } : Context).parameter? name = none := by
  cases becomes with
  | rewritten rewrites =>
    obtain ⟨source, image, path', rfl, found⟩ := rewrites.ident_of_at? (fun _ _ => Directs.lowered_arguments) found
    exact parameter?_of_identifier found
  | folded folds replaced =>
    have literally : lowered.Literally := by
      rcases replaced with ⟨_, _, _, _, _, _, rfl⟩ | ⟨_, _, _, rfl⟩
      · exact .direct
      · exact Value.literally_toExpr _ _
    exact absurd found (literally.at?_ne_ident path name)

/-- The expressions of an item of an instance: what those of its source become, but for the literal of a
constant. -/
theorem ItemSpecializes.becomes {item lowered : PackageItem} (unhidden : context.hidden = [])
    (specializes : program.ItemSpecializes registry context item lowered) {place : Nat} {bound : List String}
    {expr : Expr} (there : lowered.exprs[place]? = some ⟨bound, expr⟩) :
    expr.Literally ∨ ∃ source : Expr, source.Becomes (program.rewriting registry context) bound expr := by
  cases specializes with
  | const denotes type =>
    rw [unhidden] at type
    obtain ⟨whole, member, same⟩ := List.mem_map.mp (List.mem_of_getElem? there)
    cases same
    rcases List.mem_append.mp member with declared | last
    · obtain ⟨source, _, becomes⟩ := exists_left_of_forall₂ (TypeExpr.exprs_of_rel type) declared
      exact .inr ⟨source, becomes⟩
    · rw [List.mem_singleton.mp last]
      exact .inl (Value.literally_toExpr _ _)
  | item notConst rewrites =>
    rw [unhidden] at rewrites
    obtain ⟨source, _, same, becomes⟩ := exists_getElem?_of_forall₂ rewrites.exprs.flip there
    cases same
    exact .inr ⟨source.expr, becomes⟩

theorem ItemSpecializes.parameter?_eq_none {item lowered : PackageItem} (unhidden : context.hidden = [])
    (specializes : program.ItemSpecializes registry context item lowered) {address : Address} {bound : List String}
    {name : String} (found : lowered.at? address = some ⟨bound, .ident name⟩) :
    ({ context with hidden := bound } : Context).parameter? name = none := by
  obtain ⟨whole, here, there⟩ := PackageItem.at?_eq_some.mp found
  rcases specializes.becomes unhidden here with literally | ⟨source, becomes⟩
  · exact absurd there (literally.at?_ne_ident _ name)
  · exact parameter?_of_becomes becomes there

/-- An identifier in the scope of a function parameter or a local of its name is left where it stands. -/
theorem ItemSpecializes.kept {item lowered : PackageItem} (unhidden : context.hidden = [])
    (specializes : program.ItemSpecializes registry context item lowered) {address : Address} {bound : List String}
    {name : String} (outside : Outside address.path) (found : item.at? address = some ⟨bound, .ident name⟩)
    (inScope : name ∈ bound) : lowered.at? address = some ⟨bound, .ident name⟩ := by
  cases specializes with
  | const denotes type =>
    rw [PackageItem.bound_eq_nil_of_const found] at inScope
    cases inScope
  | item notConst rewrites =>
    rw [unhidden] at rewrites
    have mentioned : (Expr.ident name).mentions bound = true := by
      rw [Expr.mentions, List.contains_iff_mem]
      exact inScope
    obtain ⟨part, there, part_rewrites⟩ := rewrites.at? folds_spares outside found mentioned
    cases part_rewrites with
    | ident leads =>
      rw [there, leads, identifier]
      simp [Context.parameter?, inScope]

theorem isSome_parameter {target : Instance} {arguments : Arguments} {source : Package} {evaluator : Evaluator}
    (stored : registry.get? target = some arguments) (accepts : program.Accepts target.base arguments)
    (generic : program.generic? target.base = some source)
    (made : program.evaluator registry (.instantiated target) = .ok evaluator) {name : String}
    (parameter : name ∈ source.parameters.map (·.name)) : (evaluator.bindings.get? name).isSome := by
  simp only [Program.evaluator, Registry.resolve_eq_ok.mpr stored, generic] at made
  cases made
  apply Bindings.isSome_get?_insertAll
  rw [List.map_fst_zip (by rw [List.length_map, accepts.length_eq generic])]
  exact .inr parameter

end Program

/-- No parameter of the generic package is free in the specialized one: an identifier of its name is in the
scope of a function parameter or a local of that name. In the generic package, what is in such a scope and is not
part of an argument stays as it is. -/
structure SpecializedPackage.Closed (package : SpecializedPackage) (source : Package) : Prop where
  bound : ∀ item ∈ package.items, ∀ address names name, item.at? address = some ⟨names, .ident name⟩ →
    name ∈ source.parameters.map (·.name) → name ∈ names
  kept : List.Forall₂ (fun item lowered => ∀ address names name, Outside address.path →
      item.at? address = some ⟨names, .ident name⟩ → name ∈ names →
      lowered.at? address = some ⟨names, .ident name⟩)
    source.items package.items

namespace SourceUnit

variable {unit : SourceUnit} {settings : Settings}

theorem closed_of_mem_packages {package : SpecializedPackage}
    (member : package ∈ (unit.instantiate settings).packages) :
    ∃ source, (Program.ofUnit unit settings).generic? package.target.base = some source ∧
      package.Closed source := by
  obtain ⟨source, evaluator, generic, made, items⟩ := (specializes_of_mem_packages member).body
  have completed : package ∈ (unit.finalState settings).specialized := packages_instantiate unit settings ▸ member
  have rests := unit.rests_finalState settings
  have stored := rests.coherent.arguments package completed
  have accepts := rests.consistent.accepted.get? stored
  refine ⟨source, generic, ?_, ?_⟩
  · intro item there address names name found parameter
    obtain ⟨entry, _, specializes⟩ := exists_left_of_forall₂ items there
    have unreplaced := specializes.parameter?_eq_none rfl found
    exact Context.mem_hidden rfl (Program.isSome_parameter stored accepts generic made parameter) unreplaced
  · rw [← List.zipIdx_map_fst 0 source.items]
    refine List.forall₂_map_left_iff.mpr (items.imp fun entry item specializes => ?_)
    intro address names name outside found inScope
    exact specializes.kept rfl outside found inScope

theorem exists_mem_packages {budget : Nat} {bases : List String} {base : String}
    (emitted : (unit.run? settings budget).map (fun result => result.2.specialized.map (·.target.base)) = some bases)
    (listed : base ∈ bases) : ∃ package ∈ (unit.instantiate settings).packages, package.target.base = base := by
  obtain ⟨result, ran, rfl⟩ := Option.map_eq_some_iff.mp emitted
  rw [packages_instantiate, endFrom_eq ran]
  exact List.mem_map.mp listed

end SourceUnit

/-- A function with a local of the name of a parameter. The parameter is meant before it and after the branch. -/
def maskPackage : Package :=
  ⟨"Mask", [⟨"N", .const, nowhere⟩],
    [.const ⟨"Bits", none, .binary .mul (.ident "N") (.int 2), nowhere⟩,
      .function ⟨"mask", [⟨"word", .logic (some (.ident "Bits"))⟩], some (.logic (some (.ident "N"))),
        [.branch (.ident "word")
          [.declare "N" (.logic (some (.ident "N"))) (.ident "word"),
            .returns (.binary .add (.ident "N") (.ident "Bits"))] [],
          .returns (.ident "N")]⟩], nowhere⟩

def maskUnit : SourceUnit :=
  ⟨"mask", [.package maskPackage,
    .module ⟨"Top", [.const ⟨"C", none, .reference "Mask" [.int 4] ["Bits"] nowhere, nowhere⟩], nowhere⟩]⟩

/-- The local is still read where it is in scope, and the parameter is named nowhere else. -/
theorem closed_maskUnit : ∃ package ∈ (maskUnit.instantiate {}).packages, package.Closed maskPackage ∧
    ∃ item ∈ package.items, item.at? ⟨5, [.operand 0]⟩ = some ⟨["N", "word"], .ident "N"⟩ := by
  have emitted : (maskUnit.run? {} 20).map (fun result => result.2.specialized.map (·.target.base))
      = some ["Mask"] := by
    decide +kernel
  obtain ⟨package, member, base⟩ := SourceUnit.exists_mem_packages emitted List.mem_cons_self
  obtain ⟨source, generic, closed⟩ := SourceUnit.closed_of_mem_packages member
  rw [base] at generic
  cases generic
  refine ⟨package, member, closed, ?_⟩
  have place : maskPackage.items[1]? = some _ := rfl
  obtain ⟨item, there, kept⟩ := exists_getElem?_of_forall₂ closed.kept place
  exact ⟨item, List.mem_of_getElem? there, kept _ _ _ (Outside.nil.operand 0) rfl List.mem_cons_self⟩

end Monomorph
