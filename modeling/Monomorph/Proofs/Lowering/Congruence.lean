import Monomorph.Pass.Specialization

/-! Lowering with several look-ups.

The walk over an item depends on how values are looked up in a few places only: where it
directs a reference, folds a size or an encoding, or takes the value of a constant. If a
relation between operations, one for each look-up, holds there and goes with composition,
it holds of the walks over whole items. One lemma for each class of syntax, along the
recursion of the walk.
-/

set_option autoImplicit false

namespace Monomorph

variable {ι : Type} {related : (α : Type) → (ι → PassM α) → Prop}

/-- A relation between operations that goes with their composition. -/
structure PassM.Congruence (related : (α : Type) → (ι → PassM α) → Prop) : Prop where
  pure {α : Type} (value : α) : related α fun _ => Pure.pure value
  bind {α β : Type} {operations : ι → PassM α} {next : ι → α → PassM β} : related α operations →
    (∀ value, related β fun index => next index value) → related β fun index => operations index >>= next index

theorem PassM.Congruence.mapM {α β : Type} (congruence : PassM.Congruence related) {items : List α}
    {each : ι → α → PassM β} (relates : ∀ item, related β fun index => each index item) :
    related (List β) fun index => items.mapM (each index) := by
  induction items with
  | nil => exact congruence.pure []
  | cons first rest ih =>
    simp only [List.mapM_cons]
    exact congruence.bind (relates first) fun _ => congruence.bind ih fun _ => congruence.pure _

namespace Program

structure Relates (program : Program) (related : (α : Type) → (ι → PassM α) → Prop) (lookups : ι → Lookup)
    (context : Context) : Prop extends PassM.Congruence related where
  direct (reference : Reference) :
    related Reference fun index => program.lowerReference (lookups index) context reference
  size (size : Expr) (what : String) : related Nat fun index =>
    (context.evaluator.evalSize (program.contextResolver (lookups index) context) size).adapt
      (Stop.toFault what context.site)
  encoding (value : Expr) (what : String) : related Value fun index =>
    (context.evaluator.eval (program.contextResolver (lookups index) context) value).adapt
      (Stop.toFault what context.site)
  constant (name : String) (site : Span) :
    related Value fun index => lookups index (.constant context.scope name site)

variable {program : Program} {lookups : ι → Lookup} {context : Context}

theorem Relates.hide (relates : program.Relates related lookups context) (names : List String) :
    program.Relates related lookups (context.hide names) :=
  ⟨relates.toCongruence, relates.direct, relates.size, relates.encoding, relates.constant⟩

theorem Relates.after (relates : program.Relates related lookups context) (statement : Statement) :
    program.Relates related lookups (context.after statement) := by
  cases statement with
  | declare name type value => exact relates.hide [name]
  | assign target value => exact relates
  | returns value => exact relates
  | branch condition whenTrue whenFalse => exact relates

mutual

theorem lowerExpr_related (relates : program.Relates related lookups context) :
    ∀ expr : Expr, related _ fun index => program.lowerExpr (lookups index) context expr
  | .literal value => by
    simp only [lowerExpr]
    exact relates.pure _
  | .ident name => by
    simp only [lowerExpr]
    split <;> exact relates.pure _
  | .reference package arguments members span => by
    simp only [lowerExpr]
    exact relates.bind (relates.direct _) fun _ => relates.pure _
  | .binary op left right => by
    simp only [lowerExpr]
    exact relates.bind (lowerExpr_related relates left) fun _ =>
      relates.bind (lowerExpr_related relates right) fun _ => relates.pure _
  | .unary op operand => by
    simp only [lowerExpr]
    exact relates.bind (lowerExpr_related relates operand) fun _ => relates.pure _
  | .call function arguments => by
    simp only [lowerExpr]
    exact relates.bind (lowerExprs_related relates arguments) fun _ => relates.pure _
  | .ternary condition whenTrue whenFalse => by
    simp only [lowerExpr]
    exact relates.bind (lowerExpr_related relates condition) fun _ =>
      relates.bind (lowerExpr_related relates whenTrue) fun _ =>
        relates.bind (lowerExpr_related relates whenFalse) fun _ => relates.pure _
  | .field base name => by
    simp only [lowerExpr]
    exact relates.bind (lowerExpr_related relates base) fun _ => relates.pure _

theorem lowerExprs_related (relates : program.Relates related lookups context) :
    ∀ exprs : List Expr, related _ fun index => program.lowerExprs (lookups index) context exprs
  | [] => by
    simp only [lowerExprs]
    exact relates.pure _
  | first :: rest => by
    simp only [lowerExprs]
    exact relates.bind (lowerExpr_related relates first) fun _ =>
      relates.bind (lowerExprs_related relates rest) fun _ => relates.pure _

end

theorem lowerSize_related (relates : program.Relates related lookups context) (size : Expr) :
    related _ fun index => program.lowerSize (lookups index) context size := by
  unfold lowerSize
  split
  · exact relates.bind (relates.size size _) fun _ => relates.pure _
  · exact lowerExpr_related relates size

theorem lowerEncoding_related (relates : program.Relates related lookups context) (value : Expr) :
    related _ fun index => program.lowerEncoding (lookups index) context value := by
  unfold lowerEncoding
  split
  · exact relates.bind (relates.encoding value _) fun _ => relates.pure _
  · exact lowerExpr_related relates value

theorem lowerType_related (relates : program.Relates related lookups context) (type : TypeExpr) :
    related _ fun index => program.lowerType (lookups index) context type := by
  induction type with
  | logic width =>
    cases width with
    | none => exact relates.pure _
    | some width => exact relates.bind (lowerSize_related relates width) fun _ => relates.pure _
  | bit width =>
    cases width with
    | none => exact relates.pure _
    | some width => exact relates.bind (lowerSize_related relates width) fun _ => relates.pure _
  | int kind => exact relates.pure _
  | bool => exact relates.pure _
  | named name => exact relates.pure _
  | reference reference => exact relates.bind (relates.direct reference) fun _ => relates.pure _
  | array element length ih =>
    exact relates.bind ih fun _ => relates.bind (lowerSize_related relates length) fun _ => relates.pure _

theorem lowerType?_related (relates : program.Relates related lookups context) (type : Option TypeExpr) :
    related _ fun index => program.lowerType? (lookups index) context type := by
  cases type with
  | none => exact relates.pure _
  | some type => exact relates.bind (lowerType_related relates type) fun _ => relates.pure _

theorem lowerTypedNames_related (relates : program.Relates related lookups context) (entries : List TypedName) :
    related _ fun index => program.lowerTypedNames (lookups index) context entries :=
  relates.mapM fun entry => relates.bind (lowerType_related relates entry.type) fun _ => relates.pure _

theorem lowerVariants_related (relates : program.Relates related lookups context) (variants : List EnumVariant) :
    related _ fun index => program.lowerVariants (lookups index) context variants := by
  refine relates.mapM fun variant => ?_
  split
  · exact relates.pure _
  · exact relates.bind (lowerEncoding_related relates _) fun _ => relates.pure _

mutual

theorem lowerStatement_related :
    ∀ (context : Context) (statement : Statement), program.Relates related lookups context →
      related _ fun index => program.lowerStatement (lookups index) context statement
  | context, .declare name type value, relates => by
    simp only [lowerStatement]
    exact relates.bind (lowerType_related relates type) fun _ =>
      relates.bind (lowerExpr_related relates value) fun _ => relates.pure _
  | context, .assign target value, relates => by
    simp only [lowerStatement]
    exact relates.bind (lowerExpr_related relates value) fun _ => relates.pure _
  | context, .returns value, relates => by
    simp only [lowerStatement]
    exact relates.bind (lowerExpr_related relates value) fun _ => relates.pure _
  | context, .branch condition whenTrue whenFalse, relates => by
    simp only [lowerStatement]
    exact relates.bind (lowerExpr_related relates condition) fun _ =>
      relates.bind (lowerStatements_related context whenTrue relates) fun _ =>
        relates.bind (lowerStatements_related context whenFalse relates) fun _ => relates.pure _

theorem lowerStatements_related :
    ∀ (context : Context) (statements : List Statement), program.Relates related lookups context →
      related _ fun index => program.lowerStatements (lookups index) context statements
  | context, [], relates => by
    simp only [lowerStatements]
    exact relates.pure _
  | context, first :: rest, relates => by
    simp only [lowerStatements]
    exact relates.bind (lowerStatement_related context first relates) fun _ =>
      relates.bind (lowerStatements_related (context.after first) rest (relates.after first)) fun _ => relates.pure _

end

theorem lowerFunction_related (relates : program.Relates related lookups context) (decl : FunctionDecl) :
    related _ fun index => program.lowerFunction (lookups index) context decl :=
  relates.bind (lowerTypedNames_related relates _) fun _ => relates.bind (lowerType?_related relates _) fun _ =>
    relates.bind (lowerStatements_related _ _ (relates.hide _)) fun _ => relates.pure _

theorem lowerConst_related (relates : program.Relates related lookups context) (decl : ConstDecl) :
    related _ fun index => program.lowerConst (lookups index) context decl :=
  relates.bind (lowerType?_related relates _) fun _ =>
    relates.bind (lowerExpr_related relates _) fun _ => relates.pure _

theorem lowerPackageItem_related (relates : program.Relates related lookups context) (item : PackageItem) :
    related _ fun index => program.lowerPackageItem (lookups index) context item := by
  cases item with
  | const decl => exact relates.bind (lowerConst_related relates decl) fun _ => relates.pure _
  | typeDef name type => exact relates.bind (lowerType_related relates type) fun _ => relates.pure _
  | struct name kind fields => exact relates.bind (lowerTypedNames_related relates fields) fun _ => relates.pure _
  | enum name base variants =>
    exact relates.bind (lowerType?_related relates base) fun _ =>
      relates.bind (lowerVariants_related relates variants) fun _ => relates.pure _
  | function decl => exact relates.bind (lowerFunction_related relates decl) fun _ => relates.pure _

theorem lowerModuleItem_related (relates : program.Relates related lookups context) (item : ModuleItem) :
    related _ fun index => program.lowerModuleItem (lookups index) context item := by
  cases item with
  | const decl => exact relates.bind (lowerConst_related relates decl) fun _ => relates.pure _
  | declare name type value =>
    exact relates.bind (lowerType_related relates type) fun _ =>
      relates.bind (lowerExpr_related relates value) fun _ => relates.pure _
  | var name type => exact relates.bind (lowerType_related relates type) fun _ => relates.pure _

theorem specializeItem_related (relates : program.Relates related lookups context) (item : PackageItem) :
    related _ fun index => program.specializeItem (lookups index) context item := by
  cases item with
  | const decl =>
    exact relates.bind (relates.constant _ _) fun _ =>
      relates.bind (lowerType?_related relates decl.type) fun _ => relates.pure _
  | typeDef name type => exact relates.bind (lowerPackageItem_related relates _) fun _ => relates.pure _
  | struct name kind fields => exact relates.bind (lowerPackageItem_related relates _) fun _ => relates.pure _
  | enum name base variants => exact relates.bind (lowerPackageItem_related relates _) fun _ => relates.pure _
  | function decl => exact relates.bind (lowerPackageItem_related relates _) fun _ => relates.pure _

end Program
end Monomorph
