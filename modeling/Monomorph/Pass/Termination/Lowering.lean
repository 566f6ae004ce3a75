import Monomorph.Pass.Lowering
import Monomorph.Pass.Termination.Constant

/-! Every lowering settles. It walks along the item and evaluates what it meets. -/

set_option autoImplicit false

namespace Monomorph

def Context.KnownIn (context : Context) {program : Program} (region : Region program) : Prop :=
  ∀ state, region.holds state → state.Knows context.scope

theorem Context.KnownIn.hide {context : Context} {program : Program} {region : Region program}
    (known : context.KnownIn region) (names : List String) : (context.hide names).KnownIn region := known

theorem Context.KnownIn.after {context : Context} {program : Program} {region : Region program}
    (known : context.KnownIn region) (statement : Statement) : (context.after statement).KnownIn region := by
  cases statement <;> exact known

namespace Program

variable {program : Program} {region : Region program} {context : Context}

theorem lowerReference_completes (known : context.KnownIn region) (reference : Reference) :
    region.Completes fun budget => program.lowerReference (.ofBudget program budget) context reference := by
  have finds : region.Completes fun budget =>
      program.target (.ofBudget program budget) reference context.scope context.position :=
    fun state here => (target_settles reference context.position
      (fun argument _ evaluator => eval_completes (constants_in region) known context.position
        reference.span evaluator argument) state here).imp fun _ _ reached => reached.1
  unfold lowerReference
  refine .bind finds fun target => ?_
  cases target with
  | instantiated package target => exact .bind (.ofResult _) fun _ => .pure _
  | plain package => exact .bind (.ofResult _) fun _ => .pure _
  | unknown => exact .pure _

mutual
theorem lowerExpr_completes (known : context.KnownIn region) :
    ∀ expr : Expr, region.Completes fun budget => program.lowerExpr (.ofBudget program budget) context expr
  | .literal value => by
    simp only [lowerExpr]
    exact .pure _
  | .ident name => by
    simp only [lowerExpr]
    split <;> exact .pure _
  | .reference package arguments members span => by
    simp only [lowerExpr]
    exact .bind (lowerReference_completes known _) fun _ => .pure _
  | .binary op left right => by
    simp only [lowerExpr]
    exact .bind (lowerExpr_completes known left) fun _ =>
      .bind (lowerExpr_completes known right) fun _ => .pure _
  | .unary op operand => by
    simp only [lowerExpr]
    exact .bind (lowerExpr_completes known operand) fun _ => .pure _
  | .call function arguments => by
    simp only [lowerExpr]
    exact .bind (lowerExprs_completes known arguments) fun _ => .pure _
  | .ternary condition whenTrue whenFalse => by
    simp only [lowerExpr]
    exact .bind (lowerExpr_completes known condition) fun _ =>
      .bind (lowerExpr_completes known whenTrue) fun _ =>
        .bind (lowerExpr_completes known whenFalse) fun _ => .pure _
  | .field base name => by
    simp only [lowerExpr]
    exact .bind (lowerExpr_completes known base) fun _ => .pure _

theorem lowerExprs_completes (known : context.KnownIn region) :
    ∀ exprs : List Expr, region.Completes fun budget =>
      program.lowerExprs (.ofBudget program budget) context exprs
  | [] => by
    simp only [lowerExprs]
    exact .pure _
  | first :: rest => by
    simp only [lowerExprs]
    exact .bind (lowerExpr_completes known first) fun _ =>
      .bind (lowerExprs_completes known rest) fun _ => .pure _
end

theorem lowerSize_completes (known : context.KnownIn region) (size : Expr) :
    region.Completes fun budget => program.lowerSize (.ofBudget program budget) context size := by
  unfold lowerSize
  split
  · exact .bind (.adapt (evalSize_completes (constants_in region) known context.position context.site
      context.evaluator size) _) fun _ => .pure _
  · exact lowerExpr_completes known size

theorem lowerType_completes (known : context.KnownIn region) (type : TypeExpr) :
    region.Completes fun budget => program.lowerType (.ofBudget program budget) context type := by
  induction type with
  | logic width =>
    cases width with
    | none => exact .pure _
    | some width => exact .bind (lowerSize_completes known width) fun _ => .pure _
  | bit width =>
    cases width with
    | none => exact .pure _
    | some width => exact .bind (lowerSize_completes known width) fun _ => .pure _
  | int kind => exact .pure _
  | bool => exact .pure _
  | named name => exact .pure _
  | reference reference => exact .bind (lowerReference_completes known reference) fun _ => .pure _
  | array element length ih =>
    exact .bind ih fun _ => .bind (lowerSize_completes known length) fun _ => .pure _

theorem lowerType?_completes (known : context.KnownIn region) (type : Option TypeExpr) :
    region.Completes fun budget => program.lowerType? (.ofBudget program budget) context type := by
  cases type with
  | none => exact .pure _
  | some type => exact .bind (lowerType_completes known type) fun _ => .pure _

theorem lowerTypedNames_completes (known : context.KnownIn region) (entries : List TypedName) :
    region.Completes fun budget => program.lowerTypedNames (.ofBudget program budget) context entries :=
  .mapM fun entry _ => .bind (lowerType_completes known entry.type) fun _ => .pure _

theorem lowerEncoding_completes (known : context.KnownIn region) (value : Expr) :
    region.Completes fun budget => program.lowerEncoding (.ofBudget program budget) context value := by
  unfold lowerEncoding
  split
  · exact .bind (.adapt (eval_completes (constants_in region) known context.position context.site
      context.evaluator value) _) fun _ => .pure _
  · exact lowerExpr_completes known value

theorem lowerVariants_completes (known : context.KnownIn region) (variants : List EnumVariant) :
    region.Completes fun budget => program.lowerVariants (.ofBudget program budget) context variants := by
  refine .mapM fun variant _ => ?_
  split
  · exact .pure _
  · exact .bind (lowerEncoding_completes known _) fun _ => .pure _

mutual
theorem lowerStatement_completes {context : Context} (known : context.KnownIn region) :
    ∀ statement : Statement, region.Completes fun budget =>
      program.lowerStatement (.ofBudget program budget) context statement
  | .declare name type value => by
    simp only [lowerStatement]
    exact .bind (lowerType_completes known type) fun _ =>
      .bind (lowerExpr_completes known value) fun _ => .pure _
  | .assign target value => by
    simp only [lowerStatement]
    exact .bind (lowerExpr_completes known value) fun _ => .pure _
  | .returns value => by
    simp only [lowerStatement]
    exact .bind (lowerExpr_completes known value) fun _ => .pure _
  | .branch condition whenTrue whenFalse => by
    simp only [lowerStatement]
    exact .bind (lowerExpr_completes known condition) fun _ =>
      .bind (lowerStatements_completes known whenTrue) fun _ =>
        .bind (lowerStatements_completes known whenFalse) fun _ => .pure _

theorem lowerStatements_completes {context : Context} (known : context.KnownIn region) :
    ∀ statements : List Statement, region.Completes fun budget =>
      program.lowerStatements (.ofBudget program budget) context statements
  | [] => by
    simp only [lowerStatements]
    exact .pure _
  | first :: rest => by
    simp only [lowerStatements]
    exact .bind (lowerStatement_completes known first) fun _ =>
      .bind (lowerStatements_completes (known.after first) rest) fun _ => .pure _
end

theorem lowerFunction_completes (known : context.KnownIn region) (decl : FunctionDecl) :
    region.Completes fun budget => program.lowerFunction (.ofBudget program budget) context decl :=
  .bind (lowerTypedNames_completes known _) fun _ => .bind (lowerType?_completes known _) fun _ =>
    .bind (lowerStatements_completes (known.hide _) _) fun _ => .pure _

theorem lowerConst_completes (known : context.KnownIn region) (decl : ConstDecl) :
    region.Completes fun budget => program.lowerConst (.ofBudget program budget) context decl :=
  .bind (lowerType?_completes known _) fun _ => .bind (lowerExpr_completes known _) fun _ => .pure _

theorem lowerPackageItem_completes (known : context.KnownIn region) (item : PackageItem) :
    region.Completes fun budget => program.lowerPackageItem (.ofBudget program budget) context item := by
  cases item with
  | const decl => exact .bind (lowerConst_completes known decl) fun _ => .pure _
  | typeDef name type => exact .bind (lowerType_completes known type) fun _ => .pure _
  | struct name kind fields => exact .bind (lowerTypedNames_completes known fields) fun _ => .pure _
  | enum name base variants =>
    exact .bind (lowerType?_completes known base) fun _ =>
      .bind (lowerVariants_completes known variants) fun _ => .pure _
  | function decl => exact .bind (lowerFunction_completes known decl) fun _ => .pure _

theorem lowerModuleItem_completes (known : context.KnownIn region) (item : ModuleItem) :
    region.Completes fun budget => program.lowerModuleItem (.ofBudget program budget) context item := by
  cases item with
  | const decl => exact .bind (lowerConst_completes known decl) fun _ => .pure _
  | declare name type value =>
    exact .bind (lowerType_completes known type) fun _ =>
      .bind (lowerExpr_completes known value) fun _ => .pure _
  | var name type => exact .bind (lowerType_completes known type) fun _ => .pure _

end Program
end Monomorph
