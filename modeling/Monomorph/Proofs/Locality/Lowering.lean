import Monomorph.Pass.Specialization
import Monomorph.Proofs.Locality.Evaluation

/-! Lowering in a program and in a wider one.

Where the references of an item are visible, the walk over it is the same operation in
both programs; one lemma for each class of syntax, along the recursion of the walk.
-/

set_option autoImplicit false

namespace Monomorph

theorem mapM_congr_of_mem {α β : Type} {m : Type → Type} [Monad m] [LawfulMonad m] {items : List α}
    {each other : α → m β} (same : ∀ item ∈ items, other item = each item) : items.mapM other = items.mapM each := by
  induction items with
  | nil => simp only [List.mapM_nil]
  | cons first rest ih =>
    obtain ⟨here, later⟩ := List.forall_mem_cons.mp same
    simp only [List.mapM_cons, here, ih later]

theorem Context.scope_after (context : Context) (statement : Statement) :
    (context.after statement).scope = context.scope := by
  cases statement <;> rfl

namespace Program

variable {program wider : Program} {lookup wide : Lookup} {context : Context}

theorem Mirrors.lowerReference_eq (mirrors : program.Mirrors lookup wider wide)
    (covers : program.Covers context.scope) {reference : Reference} (visible : reference.Visible program wider) :
    wider.lowerReference wide context reference = program.lowerReference lookup context reference := by
  simp only [lowerReference, mirrors.target_eq covers visible]

mutual

theorem Mirrors.lowerExpr_eq (mirrors : program.Mirrors lookup wider wide)
    (covers : program.Covers context.scope) : ∀ expr : Expr,
      (∀ reference ∈ expr.references, reference.Visible program wider) →
      wider.lowerExpr wide context expr = program.lowerExpr lookup context expr
  | .literal value, _ => by simp only [lowerExpr]
  | .ident name, _ => by simp only [lowerExpr]
  | .reference package arguments members span, visible => by
    simp only [lowerExpr, mirrors.lowerReference_eq covers (visible _ (List.mem_singleton_self _))]
  | .binary op left right, visible => by
    obtain ⟨inLeft, inRight⟩ := List.forall_mem_append.mp visible
    simp only [lowerExpr, mirrors.lowerExpr_eq covers left inLeft, mirrors.lowerExpr_eq covers right inRight]
  | .unary op operand, visible => by simp only [lowerExpr, mirrors.lowerExpr_eq covers operand visible]
  | .call function arguments, visible => by
    simp only [lowerExpr, mirrors.lowerExprs_eq covers arguments visible]
  | .ternary condition whenTrue whenFalse, visible => by
    obtain ⟨visible, inFalse⟩ := List.forall_mem_append.mp visible
    obtain ⟨inCondition, inTrue⟩ := List.forall_mem_append.mp visible
    simp only [lowerExpr, mirrors.lowerExpr_eq covers condition inCondition,
      mirrors.lowerExpr_eq covers whenTrue inTrue, mirrors.lowerExpr_eq covers whenFalse inFalse]
  | .field base name, visible => by simp only [lowerExpr, mirrors.lowerExpr_eq covers base visible]

theorem Mirrors.lowerExprs_eq (mirrors : program.Mirrors lookup wider wide)
    (covers : program.Covers context.scope) : ∀ exprs : List Expr,
      (∀ reference ∈ Expr.listReferences exprs, reference.Visible program wider) →
      wider.lowerExprs wide context exprs = program.lowerExprs lookup context exprs
  | [], _ => by simp only [lowerExprs]
  | first :: rest, visible => by
    obtain ⟨inFirst, inRest⟩ := List.forall_mem_append.mp visible
    simp only [lowerExprs, mirrors.lowerExpr_eq covers first inFirst, mirrors.lowerExprs_eq covers rest inRest]

end

theorem Mirrors.lowerSize_eq (mirrors : program.Mirrors lookup wider wide)
    (covers : program.Covers context.scope) (size : Expr)
    (visible : ∀ reference ∈ size.references, reference.Visible program wider) :
    wider.lowerSize wide context size = program.lowerSize lookup context size := by
  have matched := mirrors.resolver_matches covers context.position context.site
  simp only [lowerSize, contextResolver, matched.evalSize_eq size visible, mirrors.lowerExpr_eq covers size visible]

theorem Mirrors.lowerEncoding_eq (mirrors : program.Mirrors lookup wider wide)
    (covers : program.Covers context.scope) (value : Expr)
    (visible : ∀ reference ∈ value.references, reference.Visible program wider) :
    wider.lowerEncoding wide context value = program.lowerEncoding lookup context value := by
  have matched := mirrors.resolver_matches covers context.position context.site
  simp only [lowerEncoding, contextResolver, matched.eval_eq value visible,
    mirrors.lowerExpr_eq covers value visible]

theorem Mirrors.lowerType_eq (mirrors : program.Mirrors lookup wider wide)
    (covers : program.Covers context.scope) (type : TypeExpr)
    (visible : ∀ reference ∈ type.references, reference.Visible program wider) :
    wider.lowerType wide context type = program.lowerType lookup context type := by
  induction type with
  | logic width =>
    cases width with
    | none => simp only [lowerType]
    | some width => simp only [lowerType, mirrors.lowerSize_eq covers width visible]
  | bit width =>
    cases width with
    | none => simp only [lowerType]
    | some width => simp only [lowerType, mirrors.lowerSize_eq covers width visible]
  | int kind => simp only [lowerType]
  | bool => simp only [lowerType]
  | named name => simp only [lowerType]
  | reference target =>
    simp only [lowerType, mirrors.lowerReference_eq covers (visible target (List.mem_singleton_self _))]
  | array element length ih =>
    obtain ⟨inElement, inLength⟩ := List.forall_mem_append.mp visible
    simp only [lowerType, ih inElement, mirrors.lowerSize_eq covers length inLength]

theorem Mirrors.lowerType?_eq (mirrors : program.Mirrors lookup wider wide)
    (covers : program.Covers context.scope) (type : Option TypeExpr)
    (visible : ∀ reference ∈ type.elim [] TypeExpr.references, reference.Visible program wider) :
    wider.lowerType? wide context type = program.lowerType? lookup context type := by
  cases type with
  | none => simp only [lowerType?]
  | some type => simp only [lowerType?, mirrors.lowerType_eq covers type visible]

theorem Mirrors.lowerTypedNames_eq (mirrors : program.Mirrors lookup wider wide)
    (covers : program.Covers context.scope) (entries : List TypedName)
    (visible : ∀ reference ∈ TypedName.listReferences entries, reference.Visible program wider) :
    wider.lowerTypedNames wide context entries = program.lowerTypedNames lookup context entries := by
  apply mapM_congr_of_mem
  intro entry member
  have inType := fun reference listed => visible reference (List.mem_flatMap.mpr ⟨entry, member, listed⟩)
  simp only [mirrors.lowerType_eq covers entry.type inType]

theorem Mirrors.lowerVariants_eq (mirrors : program.Mirrors lookup wider wide)
    (covers : program.Covers context.scope) (variants : List EnumVariant)
    (visible : ∀ reference ∈ EnumVariant.listReferences variants, reference.Visible program wider) :
    wider.lowerVariants wide context variants = program.lowerVariants lookup context variants := by
  apply mapM_congr_of_mem
  intro variant member
  cases encoded : variant.value with
  | none => rfl
  | some value =>
    have inValue : ∀ reference ∈ value.references, reference.Visible program wider := by
      refine fun reference listed => visible reference (List.mem_flatMap.mpr ⟨variant, member, ?_⟩)
      rw [encoded]
      exact listed
    simp only [mirrors.lowerEncoding_eq covers value inValue]

mutual

theorem Mirrors.lowerStatement_eq (mirrors : program.Mirrors lookup wider wide) :
    ∀ (context : Context) (statement : Statement), program.Covers context.scope →
      (∀ reference ∈ statement.references, reference.Visible program wider) →
      wider.lowerStatement wide context statement = program.lowerStatement lookup context statement
  | context, .declare name type value, covers, visible => by
    obtain ⟨inType, inValue⟩ := List.forall_mem_append.mp visible
    simp only [lowerStatement, mirrors.lowerType_eq covers type inType, mirrors.lowerExpr_eq covers value inValue]
  | context, .assign target value, covers, visible => by
    simp only [lowerStatement, mirrors.lowerExpr_eq covers value visible]
  | context, .returns value, covers, visible => by
    simp only [lowerStatement, mirrors.lowerExpr_eq covers value visible]
  | context, .branch condition whenTrue whenFalse, covers, visible => by
    obtain ⟨inCondition, visible⟩ := List.forall_mem_append.mp visible
    obtain ⟨inTrue, inFalse⟩ := List.forall_mem_append.mp visible
    simp only [lowerStatement, mirrors.lowerExpr_eq covers condition inCondition,
      mirrors.lowerStatements_eq context whenTrue covers inTrue,
      mirrors.lowerStatements_eq context whenFalse covers inFalse]

theorem Mirrors.lowerStatements_eq (mirrors : program.Mirrors lookup wider wide) :
    ∀ (context : Context) (statements : List Statement), program.Covers context.scope →
      (∀ reference ∈ Statement.listReferences statements, reference.Visible program wider) →
      wider.lowerStatements wide context statements = program.lowerStatements lookup context statements
  | context, [], _, _ => by simp only [lowerStatements]
  | context, first :: rest, covers, visible => by
    obtain ⟨inFirst, inRest⟩ := List.forall_mem_append.mp visible
    simp only [lowerStatements, mirrors.lowerStatement_eq context first covers inFirst,
      mirrors.lowerStatements_eq (context.after first) rest (context.scope_after first ▸ covers) inRest]

end

theorem Mirrors.lowerFunction_eq (mirrors : program.Mirrors lookup wider wide)
    (covers : program.Covers context.scope) (decl : FunctionDecl)
    (visible : ∀ reference ∈ decl.references, reference.Visible program wider) :
    wider.lowerFunction wide context decl = program.lowerFunction lookup context decl := by
  obtain ⟨inParameters, visible⟩ := List.forall_mem_append.mp visible
  obtain ⟨inResult, inBody⟩ := List.forall_mem_append.mp visible
  -- what a function hides is declared in the same scope
  have hides := mirrors.lowerStatements_eq (context.hide (decl.parameters.map (·.name))) decl.body covers inBody
  simp only [lowerFunction, mirrors.lowerTypedNames_eq covers decl.parameters inParameters,
    mirrors.lowerType?_eq covers decl.result inResult, hides]

theorem Mirrors.lowerConst_eq (mirrors : program.Mirrors lookup wider wide)
    (covers : program.Covers context.scope) (decl : ConstDecl)
    (visible : ∀ reference ∈ decl.references, reference.Visible program wider) :
    wider.lowerConst wide context decl = program.lowerConst lookup context decl := by
  obtain ⟨inValue, inType⟩ := List.forall_mem_append.mp visible
  simp only [lowerConst, mirrors.lowerType?_eq covers decl.type inType, mirrors.lowerExpr_eq covers decl.value inValue]

theorem Mirrors.lowerPackageItem_eq (mirrors : program.Mirrors lookup wider wide)
    (covers : program.Covers context.scope) (item : PackageItem)
    (visible : ∀ reference ∈ item.references, reference.Visible program wider) :
    wider.lowerPackageItem wide context item = program.lowerPackageItem lookup context item := by
  cases item with
  | const decl => simp only [lowerPackageItem, mirrors.lowerConst_eq covers decl visible]
  | typeDef name type => simp only [lowerPackageItem, mirrors.lowerType_eq covers type visible]
  | struct name kind fields => simp only [lowerPackageItem, mirrors.lowerTypedNames_eq covers fields visible]
  | enum name base variants =>
    obtain ⟨inBase, inVariants⟩ := List.forall_mem_append.mp visible
    simp only [lowerPackageItem, mirrors.lowerType?_eq covers base inBase,
      mirrors.lowerVariants_eq covers variants inVariants]
  | function decl => simp only [lowerPackageItem, mirrors.lowerFunction_eq covers decl visible]

theorem Mirrors.lowerModuleItem_eq (mirrors : program.Mirrors lookup wider wide)
    (covers : program.Covers context.scope) (item : ModuleItem)
    (visible : ∀ reference ∈ item.references, reference.Visible program wider) :
    wider.lowerModuleItem wide context item = program.lowerModuleItem lookup context item := by
  cases item with
  | const decl => simp only [lowerModuleItem, mirrors.lowerConst_eq covers decl visible]
  | declare name type value =>
    obtain ⟨inType, inValue⟩ := List.forall_mem_append.mp visible
    simp only [lowerModuleItem, mirrors.lowerType_eq covers type inType, mirrors.lowerExpr_eq covers value inValue]
  | var name type => simp only [lowerModuleItem, mirrors.lowerType_eq covers type visible]

theorem Mirrors.specializeItem_eq (mirrors : program.Mirrors lookup wider wide)
    (covers : program.Covers context.scope) (item : PackageItem)
    (visible : ∀ reference ∈ item.references, reference.Visible program wider) :
    wider.specializeItem wide context item = program.specializeItem lookup context item := by
  have lowered := mirrors.lowerPackageItem_eq covers item visible
  cases item with
  | const decl =>
    obtain ⟨_, inType⟩ := List.forall_mem_append.mp visible
    simp only [specializeItem, mirrors.constant context.scope decl.name decl.span covers,
      mirrors.lowerType?_eq covers decl.type inType]
  | typeDef name type => simp only [specializeItem, lowered]
  | struct name kind fields => simp only [specializeItem, lowered]
  | enum name base variants => simp only [specializeItem, lowered]
  | function decl => simp only [specializeItem, lowered]

theorem Mirrors.specializeBody_eq (mirrors : program.Mirrors lookup wider wide) {package : Package}
    (declared : program.package? package.name = some package) (id : InstanceId) :
    wider.specializeBody wide package ⟨package.name, id⟩
      = program.specializeBody lookup package ⟨package.name, id⟩ := by
  have covers : program.Covers (.instantiated ⟨package.name, id⟩) := .instantiated declared
  simp only [specializeBody, mirrors.within.evaluatorFor_eq covers]
  refine bind_congr fun evaluator => congrArg (· >>= _) (mapM_congr_of_mem fun entry member => ?_)
  apply mirrors.specializeItem_eq covers
  intro reference listed
  apply mirrors.within.visible _ (package_mem_of_package? declared).1
  exact Package.mem_references (List.fst_mem_of_mem_zipIdx member) listed

end Program
end Monomorph
