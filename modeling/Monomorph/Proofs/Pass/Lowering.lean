import Monomorph.Proofs.Pass.Evaluation

/-! Lowering is the rewriting of the pass.

One lemma for each class of syntax, along the recursion of the walk over it. The
context of a statement hides the names declared before it, so the lemmas on
statements are for all contexts at once.
-/

set_option autoImplicit false

namespace Monomorph.Program

variable {program : Program} {lookup : Lookup} {context : Context}

theorem lowerReference_ensures (faithful : lookup.Faithful program) {pre : Registry → Prop}
    (reference : Reference) :
    Ensures program pre (program.lowerReference lookup context reference)
      fun lowered registry => (program.rewriting registry context).reference reference lowered := by
  unfold lowerReference
  apply (target_ensures faithful reference).bind
  intro target
  split
  · rename_i package target
    apply (Ensures.ofResult fun _ _ checked _ => checked).bind
    intro _
    apply Ensures.pure
    rintro registry ⟨⟨_, reaches⟩, checked⟩
    cases reaches with
    | instantiated generic binds found => exact .instantiated generic binds found checked
  · rename_i package
    apply (Ensures.ofResult fun _ _ checked _ => checked).bind
    intro _
    apply Ensures.pure
    rintro registry ⟨⟨_, reaches⟩, checked⟩
    cases reaches with
    | plain plain none => exact .plain plain none checked
  · apply Ensures.pure
    rintro registry ⟨_, reaches⟩
    cases reaches with
    | unknown unknown none => exact .unknown unknown none

mutual

theorem lowerExpr_ensures (faithful : lookup.Faithful program) :
    ∀ {pre : Registry → Prop} (expr : Expr), Ensures program pre (program.lowerExpr lookup context expr)
      fun lowered registry => expr.Rewrites (program.rewriting registry context) context.hidden lowered
  | _, .literal value => by
    rw [lowerExpr]
    exact .pure fun registry _ => .literal
  | _, .ident name => by
    rw [lowerExpr]
    split
    · rename_i value bound
      refine .pure fun registry _ => .ident ?_
      simp only [rewriting, identifier, bound]
    · rename_i free
      refine .pure fun registry _ => .ident ?_
      simp only [rewriting, identifier, free]
  | _, .reference package arguments members span => by
    rw [lowerExpr]
    apply (lowerReference_ensures faithful ⟨package, arguments, members, span⟩).bind
    intro lowered
    exact .pure fun registry known => .reference known.2
  | _, .binary op left right => by
    rw [lowerExpr]
    apply (lowerExpr_ensures faithful left).bind
    intro left'
    apply (lowerExpr_ensures faithful right).bind
    intro right'
    exact .pure fun registry known => .binary known.1.2 known.2
  | _, .unary op operand => by
    rw [lowerExpr]
    apply (lowerExpr_ensures faithful operand).bind
    intro operand'
    exact .pure fun registry known => .unary known.2
  | _, .call function arguments => by
    rw [lowerExpr]
    apply (lowerExprs_ensures faithful arguments).bind
    intro arguments'
    exact .pure fun registry known => .call known.2
  | _, .ternary condition whenTrue whenFalse => by
    rw [lowerExpr]
    apply (lowerExpr_ensures faithful condition).bind
    intro condition'
    apply (lowerExpr_ensures faithful whenTrue).bind
    intro whenTrue'
    apply (lowerExpr_ensures faithful whenFalse).bind
    intro whenFalse'
    exact .pure fun registry known => .ternary known.1.1.2 known.1.2 known.2
  | _, .field base name => by
    rw [lowerExpr]
    apply (lowerExpr_ensures faithful base).bind
    intro base'
    exact .pure fun registry known => .field known.2

theorem lowerExprs_ensures (faithful : lookup.Faithful program) :
    ∀ {pre : Registry → Prop} (exprs : List Expr), Ensures program pre (program.lowerExprs lookup context exprs)
      fun lowered registry =>
        List.Forall₂ (Expr.Rewrites (program.rewriting registry context) context.hidden) exprs lowered
  | _, [] => by
    rw [lowerExprs]
    exact .pure fun registry _ => .nil
  | _, first :: rest => by
    rw [lowerExprs]
    apply (lowerExpr_ensures faithful first).bind
    intro first'
    apply (lowerExprs_ensures faithful rest).bind
    intro rest'
    exact .pure fun registry known => .cons known.1.2 known.2

end

theorem lowerSize_ensures (faithful : lookup.Faithful program) {pre : Registry → Prop} (size : Expr) :
    Ensures program pre (program.lowerSize lookup context size)
      fun lowered registry => size.SizeRewrites (program.rewriting registry context) context.hidden lowered := by
  unfold lowerSize
  split
  · rename_i folds
    apply ((evalSize_ensures faithful size).adapt _).bind
    intro count
    apply Ensures.pure
    rintro registry ⟨_, value, evaluated, counted, positive⟩
    -- a size is folded in instances only
    have specializes : context.specializes = true := by
      simp only [Context.folds, Bool.and_eq_true] at folds
      exact folds.1
    simp only [Expr.SizeRewrites, rewriting, folds, if_true]
    exact ⟨specializes, value, count, evaluated, counted, positive, rfl⟩
  · rename_i folds
    apply (lowerExpr_ensures faithful size).imp
    intro lowered registry _ rewrites
    simp only [Expr.SizeRewrites, rewriting, folds]
    exact rewrites

theorem lowerEncoding_ensures (faithful : lookup.Faithful program) {pre : Registry → Prop} (value : Expr) :
    Ensures program pre (program.lowerEncoding lookup context value)
      fun lowered registry =>
        value.EncodingRewrites (program.rewriting registry context) context.hidden lowered := by
  unfold lowerEncoding
  split
  · rename_i folds
    apply ((eval_ensures faithful value).adapt _).bind
    intro found
    apply Ensures.pure
    rintro registry ⟨_, evaluated⟩
    have specializes : context.specializes = true := by
      simp only [Context.folds, Bool.and_eq_true] at folds
      exact folds.1
    simp only [Expr.EncodingRewrites, rewriting, folds, if_true]
    exact ⟨specializes, found, evaluated, rfl⟩
  · rename_i folds
    apply (lowerExpr_ensures faithful value).imp
    intro lowered registry _ rewrites
    simp only [Expr.EncodingRewrites, rewriting, folds]
    exact rewrites

theorem lowerType_ensures (faithful : lookup.Faithful program) {pre : Registry → Prop} (type : TypeExpr) :
    Ensures program pre (program.lowerType lookup context type)
      fun lowered registry => type.Rewrites (program.rewriting registry context) context.hidden lowered := by
  induction type generalizing pre with
  | logic width =>
    cases width with
    | none => exact .pure fun registry _ => .oneLogic
    | some width =>
      rw [lowerType]
      apply (lowerSize_ensures faithful width).bind
      intro width'
      exact .pure fun registry known => .logic known.2
  | bit width =>
    cases width with
    | none => exact .pure fun registry _ => .oneBit
    | some width =>
      rw [lowerType]
      apply (lowerSize_ensures faithful width).bind
      intro width'
      exact .pure fun registry known => .bit known.2
  | int kind => exact .pure fun registry _ => .int
  | bool => exact .pure fun registry _ => .bool
  | named name => exact .pure fun registry _ => .named
  | reference target =>
    rw [lowerType]
    apply (lowerReference_ensures faithful target).bind
    intro lowered
    exact .pure fun registry known => .reference known.2
  | array element length ih =>
    rw [lowerType]
    apply ih.bind
    intro element'
    apply (lowerSize_ensures faithful length).bind
    intro length'
    exact .pure fun registry known => .array known.1.2 known.2

theorem lowerType?_ensures (faithful : lookup.Faithful program) {pre : Registry → Prop}
    (type : Option TypeExpr) :
    Ensures program pre (program.lowerType? lookup context type)
      fun lowered registry =>
        Option.Rel (TypeExpr.Rewrites (program.rewriting registry context) context.hidden) type lowered := by
  cases type with
  | none => exact .pure fun registry _ => .none
  | some type =>
    apply (lowerType_ensures faithful type).bind
    intro lowered
    exact .pure fun registry known => .some known.2

theorem lowerTypedNames_ensures (faithful : lookup.Faithful program) {pre : Registry → Prop}
    (entries : List TypedName) :
    Ensures program pre (program.lowerTypedNames lookup context entries)
      fun lowered registry => List.Forall₂
        (TypedName.Rewrites (program.rewriting registry context) context.hidden) entries lowered := by
  apply Ensures.mapM
  intro entry _
  apply (lowerType_ensures faithful entry.type).bind
  intro type
  exact .pure fun registry known => .intro known.2

theorem lowerVariants_ensures (faithful : lookup.Faithful program) {pre : Registry → Prop}
    (variants : List EnumVariant) :
    Ensures program pre (program.lowerVariants lookup context variants)
      fun lowered registry => List.Forall₂
        (EnumVariant.Rewrites (program.rewriting registry context) context.hidden) variants lowered := by
  apply Ensures.mapM
  intro variant _
  obtain ⟨name, value⟩ := variant
  cases value with
  | none => exact .pure fun registry _ => .plain
  | some value =>
    apply (lowerEncoding_ensures faithful value).bind
    intro lowered
    exact .pure fun registry known => .encoded known.2

theorem hidden_after (context : Context) (statement : Statement) :
    (context.after statement).hidden = statement.declared ++ context.hidden := by
  cases statement <;> rfl

theorem rewriting_after (registry : Registry) (context : Context) (statement : Statement) :
    program.rewriting registry (context.after statement) = program.rewriting registry context := by
  cases statement <;> rfl

mutual

theorem lowerStatement_ensures (faithful : lookup.Faithful program) :
    ∀ {pre : Registry → Prop} (context : Context) (statement : Statement),
      Ensures program pre (program.lowerStatement lookup context statement)
        fun lowered registry => statement.Rewrites (program.rewriting registry context) context.hidden lowered
  | _, context, .declare name type value => by
    rw [lowerStatement]
    apply (lowerType_ensures faithful type).bind
    intro type'
    apply (lowerExpr_ensures faithful value).bind
    intro value'
    exact .pure fun registry known => .declare known.1.2 known.2
  | _, context, .assign target value => by
    rw [lowerStatement]
    apply (lowerExpr_ensures faithful value).bind
    intro value'
    exact .pure fun registry known => .assign known.2
  | _, context, .returns value => by
    rw [lowerStatement]
    apply (lowerExpr_ensures faithful value).bind
    intro value'
    exact .pure fun registry known => .returns known.2
  | _, context, .branch condition whenTrue whenFalse => by
    rw [lowerStatement]
    apply (lowerExpr_ensures faithful condition).bind
    intro condition'
    apply (lowerStatements_ensures faithful context whenTrue).bind
    intro whenTrue'
    apply (lowerStatements_ensures faithful context whenFalse).bind
    intro whenFalse'
    exact .pure fun registry known => .branch known.1.1.2 known.1.2 known.2

theorem lowerStatements_ensures (faithful : lookup.Faithful program) :
    ∀ {pre : Registry → Prop} (context : Context) (statements : List Statement),
      Ensures program pre (program.lowerStatements lookup context statements)
        fun lowered registry =>
          Statement.ListRewrites (program.rewriting registry context) context.hidden statements lowered
  | _, context, [] => by
    rw [lowerStatements]
    exact .pure fun registry _ => .nil
  | _, context, first :: rest => by
    rw [lowerStatements]
    apply (lowerStatement_ensures faithful context first).bind
    intro first'
    apply (lowerStatements_ensures faithful (context.after first) rest).bind
    intro rest'
    apply Ensures.pure
    rintro registry ⟨⟨_, here⟩, later⟩
    -- the context after a statement differs only in the names it hides
    rw [rewriting_after, hidden_after] at later
    exact .cons here later

end

theorem lowerFunction_ensures (faithful : lookup.Faithful program) {pre : Registry → Prop}
    (decl : FunctionDecl) :
    Ensures program pre (program.lowerFunction lookup context decl)
      fun lowered registry => decl.Rewrites (program.rewriting registry context) context.hidden lowered := by
  unfold lowerFunction
  apply (lowerTypedNames_ensures faithful decl.parameters).bind
  intro parameters
  apply (lowerType?_ensures faithful decl.result).bind
  intro result
  apply (lowerStatements_ensures faithful (context.hide (decl.parameters.map (·.name))) decl.body).bind
  intro body
  exact .pure fun registry known => .intro known.1.1.2 known.1.2 known.2

theorem lowerConst_ensures (faithful : lookup.Faithful program) {pre : Registry → Prop} (decl : ConstDecl) :
    Ensures program pre (program.lowerConst lookup context decl)
      fun lowered registry => decl.Rewrites (program.rewriting registry context) context.hidden lowered := by
  unfold lowerConst
  apply (lowerType?_ensures faithful decl.type).bind
  intro type
  apply (lowerExpr_ensures faithful decl.value).bind
  intro value
  exact .pure fun registry known => .intro known.1.2 known.2

theorem lowerPackageItem_ensures (faithful : lookup.Faithful program) {pre : Registry → Prop}
    (item : PackageItem) :
    Ensures program pre (program.lowerPackageItem lookup context item)
      fun lowered registry => item.Rewrites (program.rewriting registry context) context.hidden lowered := by
  cases item with
  | const decl =>
    apply (lowerConst_ensures faithful decl).bind
    intro decl'
    exact .pure fun registry known => .const known.2
  | typeDef name type =>
    apply (lowerType_ensures faithful type).bind
    intro type'
    exact .pure fun registry known => .typeDef known.2
  | struct name kind fields =>
    apply (lowerTypedNames_ensures faithful fields).bind
    intro fields'
    exact .pure fun registry known => .struct known.2
  | enum name base variants =>
    apply (lowerType?_ensures faithful base).bind
    intro base'
    apply (lowerVariants_ensures faithful variants).bind
    intro variants'
    exact .pure fun registry known => .enum known.1.2 known.2
  | function decl =>
    apply (lowerFunction_ensures faithful decl).bind
    intro decl'
    exact .pure fun registry known => .function known.2

theorem lowerModuleItem_ensures (faithful : lookup.Faithful program) {pre : Registry → Prop}
    (item : ModuleItem) :
    Ensures program pre (program.lowerModuleItem lookup context item)
      fun lowered registry => item.Rewrites (program.rewriting registry context) context.hidden lowered := by
  cases item with
  | const decl =>
    apply (lowerConst_ensures faithful decl).bind
    intro decl'
    exact .pure fun registry known => .const known.2
  | declare name type value =>
    apply (lowerType_ensures faithful type).bind
    intro type'
    apply (lowerExpr_ensures faithful value).bind
    intro value'
    exact .pure fun registry known => .declare known.1.2 known.2
  | var name type =>
    apply (lowerType_ensures faithful type).bind
    intro type'
    exact .pure fun registry known => .var known.2

end Monomorph.Program
