import Monomorph.Proofs.Lowering.Simulation

/-! What the lowering of an item asks of the pass.

The walk over an item depends on the state in a few places only: where it directs a
reference, folds a size or an encoding, or takes the value of a constant. These are its
demands, in the order of the walk. To lower an item is to meet its demands one after the
other, and the references of the lowered item are those that demands were directed to.
-/

set_option autoImplicit false

namespace Monomorph

mutual

def Statement.references : Statement → List Reference
  | .declare _ type value => type.references ++ value.references
  | .assign _ value => value.references
  | .returns value => value.references
  | .branch condition whenTrue whenFalse =>
    condition.references ++ (Statement.listReferences whenTrue ++ Statement.listReferences whenFalse)

def Statement.listReferences : List Statement → List Reference
  | [] => []
  | first :: rest => first.references ++ Statement.listReferences rest

end

def TypedName.listReferences (entries : List TypedName) : List Reference :=
  entries.flatMap (·.type.references)

def EnumVariant.listReferences (variants : List EnumVariant) : List Reference :=
  variants.flatMap fun variant => variant.value.elim [] Expr.references

def FunctionDecl.references (decl : FunctionDecl) : List Reference :=
  TypedName.listReferences decl.parameters ++
    (decl.result.elim [] TypeExpr.references ++ Statement.listReferences decl.body)

/-- The references of an item, but for those in the arguments of another reference. -/
def PackageItem.references : PackageItem → List Reference
  | .const decl => decl.references
  | .typeDef _ type => type.references
  | .struct _ _ fields => TypedName.listReferences fields
  | .enum _ base variants => base.elim [] TypeExpr.references ++ EnumVariant.listReferences variants
  | .function decl => decl.references

theorem Value.references_toExpr (value : Value) (defaultWidth : Nat) :
    (value.toExpr defaultWidth).references = [] := by
  cases value with
  | bool value => rfl
  | int value =>
    simp only [Value.toExpr, IntValue.toExpr]
    split
    · rfl
    · split
      · split <;> rfl
      · split
        · split <;> rfl
        · rfl

inductive Demand where
  /-- Find the instance that a reference leads to. -/
  | direct (reference : Reference)
  /-- Fold a width or a length. -/
  | size (size : Expr)
  /-- Fold the value of an enum variant. -/
  | encoding (value : Expr)
  /-- Take the value of a constant of the body. -/
  | constant (name : String) (site : Span)

def Demand.references : Demand → List Reference
  | .direct reference => [reference]
  | .size _ | .encoding _ | .constant .. => []

namespace Context

def sizeDemands (context : Context) (size : Expr) : List Demand :=
  if context.folds size then [.size size] else size.references.map .direct

def encodingDemands (context : Context) (value : Expr) : List Demand :=
  if context.folds value then [.encoding value] else value.references.map .direct

def typeDemands (context : Context) : TypeExpr → List Demand
  | .logic (some width) | .bit (some width) => context.sizeDemands width
  | .logic none | .bit none | .int _ | .bool | .named _ => []
  | .reference target => [.direct target]
  | .array element length => context.typeDemands element ++ context.sizeDemands length

def optionalTypeDemands (context : Context) (type : Option TypeExpr) : List Demand :=
  type.elim [] context.typeDemands

def typedNameDemands (context : Context) (entries : List TypedName) : List Demand :=
  entries.flatMap fun entry => context.typeDemands entry.type

def variantDemands (context : Context) (variants : List EnumVariant) : List Demand :=
  variants.flatMap fun variant => variant.value.elim [] context.encodingDemands

mutual

def statementDemands : Context → Statement → List Demand
  | context, .declare _ type value => context.typeDemands type ++ value.references.map .direct
  | _, .assign _ value => value.references.map .direct
  | _, .returns value => value.references.map .direct
  | context, .branch condition whenTrue whenFalse =>
    condition.references.map .direct ++ (statementsDemands context whenTrue ++ statementsDemands context whenFalse)

def statementsDemands : Context → List Statement → List Demand
  | _, [] => []
  | context, first :: rest => statementDemands context first ++ statementsDemands (context.after first) rest

end

def functionDemands (context : Context) (decl : FunctionDecl) : List Demand :=
  context.typedNameDemands decl.parameters ++ (context.optionalTypeDemands decl.result ++
    statementsDemands (context.hide (decl.parameters.map (·.name))) decl.body)

/-- The demands of an item of an instance. A constant becomes a literal, so it is evaluated and
only its type is lowered. -/
def demands (context : Context) : PackageItem → List Demand
  | .const decl => .constant decl.name decl.span :: context.optionalTypeDemands decl.type
  | .typeDef _ type => context.typeDemands type
  | .struct _ _ fields => context.typedNameDemands fields
  | .enum _ base variants => context.optionalTypeDemands base ++ context.variantDemands variants
  | .function decl => context.functionDemands decl

/-- The references that are directed when an item is lowered, in the order in which they stand. -/
def references (context : Context) (item : PackageItem) : List Reference :=
  (context.demands item).flatMap Demand.references

end Context

namespace Program

variable (program : Program) (lookup : Lookup)

/-- Meet a demand: the reference that it leads to, if it is directed. -/
def meet (context : Context) : Demand → PassM (List Reference)
  | .direct reference => do
    let lowered ← program.lowerReference lookup context reference
    pure [lowered]
  | .size size => do
    let _ ← (context.evaluator.evalSize (program.contextResolver lookup context) size).adapt
      (Stop.toFault ("size '" ++ size.text ++ "'") context.site)
    pure []
  | .encoding value => do
    let _ ← (context.evaluator.eval (program.contextResolver lookup context) value).adapt
      (Stop.toFault ("value '" ++ value.text ++ "'") context.site)
    pure []
  | .constant name site => do
    let _ ← lookup (.constant context.scope name site)
    pure []

def meetAll (context : Context) (demands : List Demand) : PassM (List Reference) := do
  let references ← demands.mapM (program.meet lookup context)
  pure references.flatten

variable {program lookup} {context : Context}

theorem meetAll_nil : program.meetAll lookup context [] = pure [] := by
  simp only [meetAll, List.mapM_nil, pure_bind, List.flatten_nil]

theorem meetAll_cons (first : Demand) (rest : List Demand) :
    program.meetAll lookup context (first :: rest) = (do
      let here ← program.meet lookup context first
      let later ← program.meetAll lookup context rest
      pure (here ++ later)) := by
  simp only [meetAll, List.mapM_cons, bind_assoc, pure_bind, List.flatten_cons]

theorem meetAll_append (first second : List Demand) :
    program.meetAll lookup context (first ++ second) = (do
      let here ← program.meetAll lookup context first
      let later ← program.meetAll lookup context second
      pure (here ++ later)) := by
  simp only [meetAll, List.mapM_append, bind_assoc, pure_bind, List.flatten_append]

theorem meetAll_singleton (demand : Demand) :
    program.meetAll lookup context [demand] = program.meet lookup context demand := by
  simp only [meetAll_cons, meetAll_nil, pure_bind, List.append_nil, bind_pure]

/-- Names that are hidden decide what is demanded, not how it is met. -/
theorem meetAll_hide (names : List String) (demands : List Demand) :
    program.meetAll lookup (context.hide names) demands = program.meetAll lookup context demands := by
  have same : program.meet lookup (context.hide names) = program.meet lookup context := by
    funext demand
    cases demand <;> rfl
  simp only [meetAll, same]

theorem meetAll_after (statement : Statement) (demands : List Demand) :
    program.meetAll lookup (context.after statement) demands = program.meetAll lookup context demands := by
  cases statement with
  | declare name type value => exact meetAll_hide [name] demands
  | assign target value => rfl
  | returns value => rfl
  | branch condition whenTrue whenFalse => rfl

mutual

theorem references_lowerExpr : ∀ expr : Expr,
    Expr.references <$> program.lowerExpr lookup context expr
      = program.meetAll lookup context (expr.references.map .direct)
  | .literal value => by
    simp only [lowerExpr, Expr.references, List.map_nil, meetAll_nil, map_pure]
  | .ident name => by
    simp only [lowerExpr, Expr.references, List.map_nil, meetAll_nil]
    split
    · simp only [map_pure, Value.references_toExpr]
    · simp only [map_pure, Expr.references]
  | .reference package arguments members span => by
    simp only [lowerExpr, Expr.references, List.map_cons, List.map_nil, meetAll_singleton, meet,
      map_eq_pure_bind, bind_assoc, pure_bind, Expr.ofReference]
  | .binary op left right => by
    simp only [lowerExpr, Expr.references, List.map_append, meetAll_append, ← references_lowerExpr,
      map_eq_pure_bind, bind_assoc, pure_bind]
  | .unary op operand => by
    simp only [lowerExpr, Expr.references, ← references_lowerExpr, map_eq_pure_bind, bind_assoc, pure_bind]
  | .call function arguments => by
    simp only [lowerExpr, Expr.references, ← references_lowerExprs, map_eq_pure_bind, bind_assoc, pure_bind]
  | .ternary condition whenTrue whenFalse => by
    simp only [lowerExpr, Expr.references, List.map_append, meetAll_append, ← references_lowerExpr,
      map_eq_pure_bind, bind_assoc, pure_bind]
  | .field base name => by
    simp only [lowerExpr, Expr.references, ← references_lowerExpr, map_eq_pure_bind, bind_assoc, pure_bind]

theorem references_lowerExprs : ∀ exprs : List Expr,
    Expr.listReferences <$> program.lowerExprs lookup context exprs
      = program.meetAll lookup context ((Expr.listReferences exprs).map .direct)
  | [] => by
    simp only [lowerExprs, Expr.listReferences, List.map_nil, meetAll_nil, map_pure]
  | first :: rest => by
    simp only [lowerExprs, Expr.listReferences, List.map_append, meetAll_append, ← references_lowerExpr,
      ← references_lowerExprs, map_eq_pure_bind, bind_assoc, pure_bind]

end

theorem references_lowerSize (size : Expr) :
    Expr.references <$> program.lowerSize lookup context size
      = program.meetAll lookup context (context.sizeDemands size) := by
  unfold lowerSize Context.sizeDemands
  split
  · simp only [meetAll_singleton, meet, map_eq_pure_bind, bind_assoc, pure_bind, Expr.int, Expr.references]
  · exact references_lowerExpr size

theorem references_lowerEncoding (value : Expr) :
    Expr.references <$> program.lowerEncoding lookup context value
      = program.meetAll lookup context (context.encodingDemands value) := by
  unfold lowerEncoding Context.encodingDemands
  split
  · simp only [meetAll_singleton, meet, map_eq_pure_bind, bind_assoc, pure_bind, Value.references_toExpr]
  · exact references_lowerExpr value

theorem references_lowerType (type : TypeExpr) :
    TypeExpr.references <$> program.lowerType lookup context type
      = program.meetAll lookup context (context.typeDemands type) := by
  induction type with
  | logic width =>
    cases width with
    | none => simp only [lowerType, Context.typeDemands, meetAll_nil, map_pure, TypeExpr.references]
    | some width =>
      simp only [lowerType, Context.typeDemands, ← references_lowerSize, map_eq_pure_bind, bind_assoc, pure_bind,
        TypeExpr.references]
  | bit width =>
    cases width with
    | none => simp only [lowerType, Context.typeDemands, meetAll_nil, map_pure, TypeExpr.references]
    | some width =>
      simp only [lowerType, Context.typeDemands, ← references_lowerSize, map_eq_pure_bind, bind_assoc, pure_bind,
        TypeExpr.references]
  | int kind => simp only [lowerType, Context.typeDemands, meetAll_nil, map_pure, TypeExpr.references]
  | bool => simp only [lowerType, Context.typeDemands, meetAll_nil, map_pure, TypeExpr.references]
  | named name => simp only [lowerType, Context.typeDemands, meetAll_nil, map_pure, TypeExpr.references]
  | reference target =>
    simp only [lowerType, Context.typeDemands, meetAll_singleton, meet, map_eq_pure_bind, bind_assoc, pure_bind,
      TypeExpr.references]
  | array element length ih =>
    simp only [lowerType, Context.typeDemands, meetAll_append, ← ih, ← references_lowerSize,
      map_eq_pure_bind, bind_assoc, pure_bind, TypeExpr.references]

theorem references_lowerType? (type : Option TypeExpr) :
    (fun lowered => lowered.elim [] TypeExpr.references) <$> program.lowerType? lookup context type
      = program.meetAll lookup context (context.optionalTypeDemands type) := by
  cases type with
  | none =>
    simp only [lowerType?, Context.optionalTypeDemands, Option.elim_none, meetAll_nil, map_pure]
  | some type =>
    simp only [lowerType?, Context.optionalTypeDemands, Option.elim_some, ← references_lowerType,
      map_eq_pure_bind, bind_assoc, pure_bind]

theorem references_mapM {α β : Type} {lower : α → PassM β} {references : β → List Reference}
    {demands : α → List Demand}
    (each : ∀ item, references <$> lower item = program.meetAll lookup context (demands item)) (items : List α) :
    (fun lowered => lowered.flatMap references) <$> items.mapM lower
      = program.meetAll lookup context (items.flatMap demands) := by
  induction items with
  | nil => simp only [List.mapM_nil, List.flatMap_nil, meetAll_nil, map_pure]
  | cons first rest ih =>
    simp only [List.mapM_cons, List.flatMap_cons, meetAll_append, ← each, ← ih, map_eq_pure_bind, bind_assoc,
      pure_bind]

theorem references_lowerTypedNames (entries : List TypedName) :
    TypedName.listReferences <$> program.lowerTypedNames lookup context entries
      = program.meetAll lookup context (context.typedNameDemands entries) := by
  apply references_mapM
  intro entry
  simp only [← references_lowerType, map_eq_pure_bind, bind_assoc, pure_bind]

theorem references_lowerVariants (variants : List EnumVariant) :
    EnumVariant.listReferences <$> program.lowerVariants lookup context variants
      = program.meetAll lookup context (context.variantDemands variants) := by
  apply references_mapM
  intro variant
  cases value_eq : variant.value with
  | none => simp only [Option.elim_none, map_pure, meetAll_nil, value_eq]
  | some value =>
    simp only [Option.elim_some, ← references_lowerEncoding, map_eq_pure_bind, bind_assoc, pure_bind]

mutual

theorem references_lowerStatement : ∀ (context : Context) (statement : Statement),
    Statement.references <$> program.lowerStatement lookup context statement
      = program.meetAll lookup context (context.statementDemands statement)
  | context, .declare name type value => by
    simp only [lowerStatement, Context.statementDemands, meetAll_append, ← references_lowerType,
      ← references_lowerExpr, map_eq_pure_bind, bind_assoc, pure_bind, Statement.references]
  | context, .assign target value => by
    simp only [lowerStatement, Context.statementDemands, ← references_lowerExpr, map_eq_pure_bind, bind_assoc,
      pure_bind, Statement.references]
  | context, .returns value => by
    simp only [lowerStatement, Context.statementDemands, ← references_lowerExpr, map_eq_pure_bind, bind_assoc,
      pure_bind, Statement.references]
  | context, .branch condition whenTrue whenFalse => by
    simp only [lowerStatement, Context.statementDemands, meetAll_append, ← references_lowerExpr,
      ← references_lowerStatements context, map_eq_pure_bind, bind_assoc, pure_bind, Statement.references]

theorem references_lowerStatements : ∀ (context : Context) (statements : List Statement),
    Statement.listReferences <$> program.lowerStatements lookup context statements
      = program.meetAll lookup context (context.statementsDemands statements)
  | context, [] => by
    simp only [lowerStatements, Context.statementsDemands, meetAll_nil, map_pure, Statement.listReferences]
  | context, first :: rest => by
    rw [Context.statementsDemands, meetAll_append, ← references_lowerStatement context first,
      ← meetAll_after first (Context.statementsDemands _ rest), ← references_lowerStatements (context.after first) rest]
    simp only [lowerStatements, map_eq_pure_bind, bind_assoc, pure_bind, Statement.listReferences]

end

theorem references_lowerFunction (decl : FunctionDecl) :
    FunctionDecl.references <$> program.lowerFunction lookup context decl
      = program.meetAll lookup context (context.functionDemands decl) := by
  rw [Context.functionDemands, meetAll_append, meetAll_append, ← references_lowerTypedNames, ← references_lowerType?,
    ← meetAll_hide (decl.parameters.map (·.name)) (Context.statementsDemands _ decl.body),
    ← references_lowerStatements]
  simp only [lowerFunction, map_eq_pure_bind, bind_assoc, pure_bind, FunctionDecl.references]

theorem references_specializeItem (item : PackageItem) :
    (fun result => result.1.references) <$> program.specializeItem lookup context item
      = program.meetAll lookup context (context.demands item) := by
  cases item with
  | const decl =>
    simp only [specializeItem, Context.demands, meetAll_cons, meet, ← references_lowerType?, map_eq_pure_bind,
      bind_assoc, pure_bind, PackageItem.references, ConstDecl.references, Value.references_toExpr,
      List.nil_append]
  | typeDef name type =>
    simp only [specializeItem, lowerPackageItem, Context.demands, ← references_lowerType, map_eq_pure_bind,
      bind_assoc, pure_bind, PackageItem.references]
  | struct name kind fields =>
    simp only [specializeItem, lowerPackageItem, Context.demands, ← references_lowerTypedNames, map_eq_pure_bind,
      bind_assoc, pure_bind, PackageItem.references]
  | enum name base variants =>
    simp only [specializeItem, lowerPackageItem, Context.demands, meetAll_append, ← references_lowerType?,
      ← references_lowerVariants, map_eq_pure_bind, bind_assoc, pure_bind, PackageItem.references]
  | function decl =>
    simp only [specializeItem, lowerPackageItem, Context.demands, ← references_lowerFunction, map_eq_pure_bind,
      bind_assoc, pure_bind, PackageItem.references]

end Program
end Monomorph
