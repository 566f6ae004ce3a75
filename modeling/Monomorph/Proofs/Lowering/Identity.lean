import Monomorph.Proofs.Lowering.Paths

/-! Lowering of text in which every reference is kept.

Outside instances nothing is folded and no parameter is replaced, so lowering changes
references only. Where it leaves each of them as it is, it leaves the whole text as it is,
and the state with it: no constant is evaluated on the way. One lemma for each class of
syntax, along the recursion of the walk.
-/

set_option autoImplicit false

namespace Monomorph.Program

/-- Lowering leaves a reference as it is. -/
def Keeps (program : Program) (lookup : Lookup) (context : Context) (reference : Reference) : Prop :=
  program.lowerReference lookup context reference = pure reference

variable {program : Program} {lookup : Lookup} {context : Context}

mutual

theorem lowerExpr_eq_pure (plain : context.specializes = false) : ∀ expr : Expr,
    (∀ reference ∈ expr.references, program.Keeps lookup context reference) →
    program.lowerExpr lookup context expr = pure expr
  | .literal value, _ => by simp only [lowerExpr]
  | .ident name, _ => by
    simp only [lowerExpr, Context.parameter?, plain, Bool.false_and, Bool.false_eq_true, if_false]
  | .reference package arguments members span, kept => by
    have here : program.lowerReference lookup context ⟨package, arguments, members, span⟩ = _ :=
      kept _ List.mem_cons_self
    simp only [lowerExpr, here, pure_bind, Expr.ofReference]
  | .binary op left right, kept => by
    obtain ⟨onLeft, onRight⟩ := List.forall_mem_append.mp kept
    simp only [lowerExpr, lowerExpr_eq_pure plain left onLeft, lowerExpr_eq_pure plain right onRight, pure_bind]
  | .unary op operand, kept => by
    simp only [lowerExpr, lowerExpr_eq_pure plain operand kept, pure_bind]
  | .call function arguments, kept => by
    simp only [lowerExpr, lowerExprs_eq_pure plain arguments kept, pure_bind]
  | .ternary condition whenTrue whenFalse, kept => by
    obtain ⟨before, onFalse⟩ := List.forall_mem_append.mp kept
    obtain ⟨onCondition, onTrue⟩ := List.forall_mem_append.mp before
    simp only [lowerExpr, lowerExpr_eq_pure plain condition onCondition, lowerExpr_eq_pure plain whenTrue onTrue,
      lowerExpr_eq_pure plain whenFalse onFalse, pure_bind]
  | .field base name, kept => by
    simp only [lowerExpr, lowerExpr_eq_pure plain base kept, pure_bind]

theorem lowerExprs_eq_pure (plain : context.specializes = false) : ∀ exprs : List Expr,
    (∀ reference ∈ Expr.listReferences exprs, program.Keeps lookup context reference) →
    program.lowerExprs lookup context exprs = pure exprs
  | [], _ => by simp only [lowerExprs]
  | first :: rest, kept => by
    obtain ⟨here, later⟩ := List.forall_mem_append.mp kept
    simp only [lowerExprs, lowerExpr_eq_pure plain first here, lowerExprs_eq_pure plain rest later, pure_bind]

end

theorem lowerSize_eq_pure (plain : context.specializes = false) {size : Expr}
    (kept : ∀ reference ∈ size.references, program.Keeps lookup context reference) :
    program.lowerSize lookup context size = pure size := by
  simp only [lowerSize, Context.folds, plain, Bool.false_and, Bool.false_eq_true, if_false]
  exact lowerExpr_eq_pure plain size kept

theorem lowerEncoding_eq_pure (plain : context.specializes = false) {value : Expr}
    (kept : ∀ reference ∈ value.references, program.Keeps lookup context reference) :
    program.lowerEncoding lookup context value = pure value := by
  simp only [lowerEncoding, Context.folds, plain, Bool.false_and, Bool.false_eq_true, if_false]
  exact lowerExpr_eq_pure plain value kept

theorem lowerType_eq_pure (plain : context.specializes = false) {type : TypeExpr}
    (kept : ∀ reference ∈ type.references, program.Keeps lookup context reference) :
    program.lowerType lookup context type = pure type := by
  induction type with
  | logic width =>
    cases width with
    | none => simp only [lowerType]
    | some width => simp only [lowerType, lowerSize_eq_pure plain kept, pure_bind]
  | bit width =>
    cases width with
    | none => simp only [lowerType]
    | some width => simp only [lowerType, lowerSize_eq_pure plain kept, pure_bind]
  | int kind => simp only [lowerType]
  | bool => simp only [lowerType]
  | named name => simp only [lowerType]
  | reference target =>
    have here : program.lowerReference lookup context target = _ := kept target List.mem_cons_self
    simp only [lowerType, here, pure_bind]
  | array element length ih =>
    obtain ⟨inElement, inLength⟩ := List.forall_mem_append.mp kept
    simp only [lowerType, ih inElement, lowerSize_eq_pure plain inLength, pure_bind]

theorem lowerType?_eq_pure (plain : context.specializes = false) {type : Option TypeExpr}
    (kept : ∀ reference ∈ type.elim [] TypeExpr.references, program.Keeps lookup context reference) :
    program.lowerType? lookup context type = pure type := by
  cases type with
  | none => simp only [lowerType?]
  | some type => simp only [lowerType?, lowerType_eq_pure plain kept, pure_bind]

theorem mapM_eq_pure {α : Type} {each : α → PassM α} {items : List α}
    (same : ∀ item ∈ items, each item = pure item) : items.mapM each = pure items := by
  induction items with
  | nil => exact List.mapM_nil
  | cons first rest ih =>
    obtain ⟨here, later⟩ := List.forall_mem_cons.mp same
    rw [List.mapM_cons, here, pure_bind, ih later, pure_bind]

theorem lowerTypedNames_eq_pure (plain : context.specializes = false) {entries : List TypedName}
    (kept : ∀ reference ∈ TypedName.listReferences entries, program.Keeps lookup context reference) :
    program.lowerTypedNames lookup context entries = pure entries := by
  apply mapM_eq_pure
  intro entry member
  rw [lowerType_eq_pure plain fun reference inside => kept reference (List.mem_flatMap.mpr ⟨entry, member, inside⟩),
    pure_bind]

theorem lowerVariants_eq_pure (plain : context.specializes = false) {variants : List EnumVariant}
    (kept : ∀ reference ∈ EnumVariant.listReferences variants, program.Keeps lookup context reference) :
    program.lowerVariants lookup context variants = pure variants := by
  apply mapM_eq_pure
  intro variant member
  have inside := fun reference there => kept reference (List.mem_flatMap.mpr ⟨variant, member, there⟩)
  cases variant with
  | mk name value =>
    cases value with
    | none => rfl
    | some value => simp only [lowerEncoding_eq_pure plain inside, pure_bind]

mutual

theorem lowerStatement_eq_pure : ∀ (context : Context) (statement : Statement), context.specializes = false →
    (∀ reference ∈ statement.references, program.Keeps lookup context reference) →
    program.lowerStatement lookup context statement = pure statement
  | context, .declare name type value, plain, kept => by
    obtain ⟨inType, inValue⟩ := List.forall_mem_append.mp kept
    simp only [lowerStatement, lowerType_eq_pure plain inType, lowerExpr_eq_pure plain value inValue, pure_bind]
  | context, .assign target value, plain, kept => by
    simp only [lowerStatement, lowerExpr_eq_pure plain value kept, pure_bind]
  | context, .returns value, plain, kept => by
    simp only [lowerStatement, lowerExpr_eq_pure plain value kept, pure_bind]
  | context, .branch condition whenTrue whenFalse, plain, kept => by
    obtain ⟨onCondition, after⟩ := List.forall_mem_append.mp kept
    obtain ⟨onTrue, onFalse⟩ := List.forall_mem_append.mp after
    simp only [lowerStatement, lowerExpr_eq_pure plain condition onCondition,
      lowerStatements_eq_pure context whenTrue plain onTrue, lowerStatements_eq_pure context whenFalse plain onFalse,
      pure_bind]

theorem lowerStatements_eq_pure : ∀ (context : Context) (statements : List Statement), context.specializes = false →
    (∀ reference ∈ Statement.listReferences statements, program.Keeps lookup context reference) →
    program.lowerStatements lookup context statements = pure statements
  | context, [], _, _ => by simp only [lowerStatements]
  | context, first :: rest, plain, kept => by
    obtain ⟨here, later⟩ := List.forall_mem_append.mp kept
    have following : program.lowerStatements lookup (context.after first) rest = pure rest := by
      -- a declaration hides its name, which no reference looks at
      cases first with
      | declare name type value => exact lowerStatements_eq_pure (context.hide [name]) rest plain later
      | assign target value => exact lowerStatements_eq_pure context rest plain later
      | returns value => exact lowerStatements_eq_pure context rest plain later
      | branch condition whenTrue whenFalse => exact lowerStatements_eq_pure context rest plain later
    simp only [lowerStatements, lowerStatement_eq_pure context first plain here, following, pure_bind]

end

theorem lowerFunction_eq_pure (plain : context.specializes = false) {decl : FunctionDecl}
    (kept : ∀ reference ∈ decl.references, program.Keeps lookup context reference) :
    program.lowerFunction lookup context decl = pure decl := by
  obtain ⟨inParameters, after⟩ := List.forall_mem_append.mp kept
  obtain ⟨inResult, inBody⟩ := List.forall_mem_append.mp after
  have body := lowerStatements_eq_pure (context.hide (decl.parameters.map (·.name))) decl.body plain inBody
  simp only [lowerFunction, lowerTypedNames_eq_pure plain inParameters, lowerType?_eq_pure plain inResult, body,
    pure_bind]

theorem lowerConst_eq_pure (plain : context.specializes = false) {decl : ConstDecl}
    (kept : ∀ reference ∈ decl.references, program.Keeps lookup context reference) :
    program.lowerConst lookup context decl = pure decl := by
  obtain ⟨inValue, inType⟩ := List.forall_mem_append.mp kept
  simp only [lowerConst, lowerType?_eq_pure plain inType, lowerExpr_eq_pure plain decl.value inValue, pure_bind]

theorem lowerPackageItem_eq_pure (plain : context.specializes = false) {item : PackageItem}
    (kept : ∀ reference ∈ item.references, program.Keeps lookup context reference) :
    program.lowerPackageItem lookup context item = pure item := by
  cases item with
  | const decl => simp only [lowerPackageItem, lowerConst_eq_pure plain kept, pure_bind]
  | typeDef name type => simp only [lowerPackageItem, lowerType_eq_pure plain kept, pure_bind]
  | struct name kind fields => simp only [lowerPackageItem, lowerTypedNames_eq_pure plain kept, pure_bind]
  | enum name base variants =>
    obtain ⟨inBase, inVariants⟩ := List.forall_mem_append.mp kept
    simp only [lowerPackageItem, lowerType?_eq_pure plain inBase, lowerVariants_eq_pure plain inVariants, pure_bind]
  | function decl => simp only [lowerPackageItem, lowerFunction_eq_pure plain kept, pure_bind]

theorem lowerModuleItem_eq_pure (plain : context.specializes = false) {item : ModuleItem}
    (kept : ∀ reference ∈ item.references, program.Keeps lookup context reference) :
    program.lowerModuleItem lookup context item = pure item := by
  cases item with
  | const decl => simp only [lowerModuleItem, lowerConst_eq_pure plain kept, pure_bind]
  | declare name type value =>
    obtain ⟨inType, inValue⟩ := List.forall_mem_append.mp kept
    simp only [lowerModuleItem, lowerType_eq_pure plain inType, lowerExpr_eq_pure plain value inValue, pure_bind]
  | var name type => simp only [lowerModuleItem, lowerType_eq_pure plain kept, pure_bind]

end Monomorph.Program
