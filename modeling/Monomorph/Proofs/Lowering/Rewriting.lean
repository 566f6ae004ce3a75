import Monomorph.Proofs.Denotation.Laws
import Monomorph.Pass.Lowering

/-! What a lowered body has to do with its source.

A rewriting says what becomes of the leaves: of identifiers, of references, and of
the sizes and encodings that are folded. The relations below say that two pieces of
syntax differ in nothing else. `Program.rewriting` is the rewriting of the pass,
given by what names denote.
-/

set_option autoImplicit false

namespace Monomorph

section Options

variable {α β : Type} {related : α → β → Prop}

theorem exists_right_of_rel {first : α} {second : Option β} (both : Option.Rel related (some first) second) :
    ∃ value, second = some value ∧ related first value := by
  cases both with
  | some here => exact ⟨_, rfl, here⟩

theorem exists_left_of_rel {first : Option α} {second : β} (both : Option.Rel related first (some second)) :
    ∃ value, first = some value ∧ related value second := by
  cases both with
  | some here => exact ⟨_, rfl, here⟩

theorem eq_none_of_rel {second : Option β} (both : Option.Rel related none second) : second = none := by
  cases both
  rfl

end Options

section Lists

variable {α β : Type} {related : α → β → Prop} {sources : List α} {results : List β}

theorem exists_left_of_forall₂ {result : β} (all : List.Forall₂ related sources results) (member : result ∈ results) :
    ∃ source ∈ sources, related source result := by
  induction all with
  | nil => cases member
  | cons here _ ih =>
    rcases List.mem_cons.mp member with first | later
    · exact ⟨_, List.mem_cons_self, first ▸ here⟩
    · obtain ⟨source, there, found⟩ := ih later
      exact ⟨source, List.mem_cons_of_mem _ there, found⟩

theorem exists_right_of_forall₂ {source : α} (all : List.Forall₂ related sources results) (member : source ∈ sources) :
    ∃ result ∈ results, related source result :=
  exists_left_of_forall₂ all.flip member

theorem exists_getElem?_of_forall₂ {index : Nat} {source : α} (all : List.Forall₂ related sources results)
    (found : sources[index]? = some source) : ∃ result, results[index]? = some result ∧ related source result := by
  induction all generalizing index with
  | nil => cases found
  | cons here _ ih =>
    cases index with
    | zero =>
      cases found
      exact ⟨_, rfl, here⟩
    | succ index =>
      rw [List.getElem?_cons_succ] at found ⊢
      exact ih found

theorem map_eq_of_forall₂ {γ : Type} {left : α → γ} {right : β → γ} (all : List.Forall₂ related sources results)
    (agree : ∀ source result, related source result → left source = right result) :
    sources.map left = results.map right := by
  induction all with
  | nil => rfl
  | cons here _ ih => rw [List.map_cons, List.map_cons, agree _ _ here, ih]

end Lists

structure Rewriting where
  /-- Identifiers, where the names of parameters and locals of functions are hidden. -/
  ident : List String → String → Expr → Prop
  reference : Reference → Reference → Prop
  /-- Whether a size or an encoding is folded as a whole. -/
  folds : List String → Expr → Bool
  size : Expr → Expr → Prop
  encoding : Expr → Expr → Prop

def Rewriting.redirecting (reference : Reference → Reference → Prop) : Rewriting where
  ident _ name lowered := lowered = .ident name
  reference := reference
  folds _ _ := false
  size _ _ := False
  encoding _ _ := False

section Syntax

variable (rewriting : Rewriting) (hidden : List String)

inductive Expr.Rewrites : Expr → Expr → Prop where
  | literal {value : Literal} : Rewrites (.literal value) (.literal value)
  | ident {name : String} {lowered : Expr} :
      rewriting.ident hidden name lowered → Rewrites (.ident name) lowered
  | reference {package : String} {arguments : List Expr} {members : List String} {span : Span}
      {lowered : Reference} :
      rewriting.reference ⟨package, arguments, members, span⟩ lowered →
      Rewrites (.reference package arguments members span) (.ofReference lowered)
  | binary {op : BinaryOp} {left right left' right' : Expr} :
      Rewrites left left' → Rewrites right right' → Rewrites (.binary op left right) (.binary op left' right')
  | unary {op : UnaryOp} {operand operand' : Expr} :
      Rewrites operand operand' → Rewrites (.unary op operand) (.unary op operand')
  | call {function : String} {arguments arguments' : List Expr} :
      List.Forall₂ Rewrites arguments arguments' →
      Rewrites (.call function arguments) (.call function arguments')
  | ternary {condition whenTrue whenFalse condition' whenTrue' whenFalse' : Expr} :
      Rewrites condition condition' → Rewrites whenTrue whenTrue' → Rewrites whenFalse whenFalse' →
      Rewrites (.ternary condition whenTrue whenFalse) (.ternary condition' whenTrue' whenFalse')
  | field {base base' : Expr} {name : String} :
      Rewrites base base' → Rewrites (.field base name) (.field base' name)

def Expr.SizeRewrites (size lowered : Expr) : Prop :=
  if rewriting.folds hidden size then rewriting.size size lowered
  else size.Rewrites rewriting hidden lowered

def Expr.EncodingRewrites (value lowered : Expr) : Prop :=
  if rewriting.folds hidden value then rewriting.encoding value lowered
  else value.Rewrites rewriting hidden lowered

inductive TypeExpr.Rewrites : TypeExpr → TypeExpr → Prop where
  | oneLogic : Rewrites (.logic none) (.logic none)
  | oneBit : Rewrites (.bit none) (.bit none)
  | logic {width width' : Expr} :
      width.SizeRewrites rewriting hidden width' → Rewrites (.logic (some width)) (.logic (some width'))
  | bit {width width' : Expr} :
      width.SizeRewrites rewriting hidden width' → Rewrites (.bit (some width)) (.bit (some width'))
  | int {kind : IntKind} : Rewrites (.int kind) (.int kind)
  | bool : Rewrites .bool .bool
  | named {name : String} : Rewrites (.named name) (.named name)
  | reference {target lowered : Reference} :
      rewriting.reference target lowered → Rewrites (.reference target) (.reference lowered)
  | array {element element' : TypeExpr} {length length' : Expr} :
      Rewrites element element' → length.SizeRewrites rewriting hidden length' →
      Rewrites (.array element length) (.array element' length')

inductive TypedName.Rewrites : TypedName → TypedName → Prop where
  | intro {name : String} {type type' : TypeExpr} :
      type.Rewrites rewriting hidden type' → Rewrites ⟨name, type⟩ ⟨name, type'⟩

inductive EnumVariant.Rewrites : EnumVariant → EnumVariant → Prop where
  | plain {name : String} : Rewrites ⟨name, none⟩ ⟨name, none⟩
  | encoded {name : String} {value value' : Expr} :
      value.EncodingRewrites rewriting hidden value' → Rewrites ⟨name, some value⟩ ⟨name, some value'⟩

inductive ConstDecl.Rewrites : ConstDecl → ConstDecl → Prop where
  | intro {name : String} {type type' : Option TypeExpr} {value value' : Expr} {span : Span} :
      Option.Rel (TypeExpr.Rewrites rewriting hidden) type type' →
      value.Rewrites rewriting hidden value' → Rewrites ⟨name, type, value, span⟩ ⟨name, type', value', span⟩

end Syntax

def Statement.declared : Statement → List String
  | declare name _ _ => [name]
  | assign .. | returns _ | branch .. => []

section Bodies

variable (rewriting : Rewriting)

mutual

inductive Statement.Rewrites : List String → Statement → Statement → Prop where
  | declare {hidden : List String} {name : String} {type type' : TypeExpr} {value value' : Expr} :
      type.Rewrites rewriting hidden type' → value.Rewrites rewriting hidden value' →
      Rewrites hidden (.declare name type value) (.declare name type' value')
  | assign {hidden : List String} {target : String} {value value' : Expr} :
      value.Rewrites rewriting hidden value' → Rewrites hidden (.assign target value) (.assign target value')
  | returns {hidden : List String} {value value' : Expr} :
      value.Rewrites rewriting hidden value' → Rewrites hidden (.returns value) (.returns value')
  | branch {hidden : List String} {condition condition' : Expr}
      {whenTrue whenFalse whenTrue' whenFalse' : List Statement} :
      condition.Rewrites rewriting hidden condition' → Statement.ListRewrites hidden whenTrue whenTrue' →
      Statement.ListRewrites hidden whenFalse whenFalse' →
      Rewrites hidden (.branch condition whenTrue whenFalse) (.branch condition' whenTrue' whenFalse')

inductive Statement.ListRewrites : List String → List Statement → List Statement → Prop where
  | nil {hidden : List String} : ListRewrites hidden [] []
  | cons {hidden : List String} {first first' : Statement} {rest rest' : List Statement} :
      Statement.Rewrites hidden first first' → ListRewrites (first.declared ++ hidden) rest rest' →
      ListRewrites hidden (first :: rest) (first' :: rest')

end

variable (hidden : List String)

inductive FunctionDecl.Rewrites : FunctionDecl → FunctionDecl → Prop where
  | intro {name : String} {parameters parameters' : List TypedName} {result result' : Option TypeExpr}
      {body body' : List Statement} :
      List.Forall₂ (TypedName.Rewrites rewriting hidden) parameters parameters' →
      Option.Rel (TypeExpr.Rewrites rewriting hidden) result result' →
      Statement.ListRewrites rewriting (parameters.map (·.name) ++ hidden) body body' →
      Rewrites ⟨name, parameters, result, body⟩ ⟨name, parameters', result', body'⟩

inductive PackageItem.Rewrites : PackageItem → PackageItem → Prop where
  | const {decl decl' : ConstDecl} :
      decl.Rewrites rewriting hidden decl' → Rewrites (.const decl) (.const decl')
  | typeDef {name : String} {type type' : TypeExpr} :
      type.Rewrites rewriting hidden type' → Rewrites (.typeDef name type) (.typeDef name type')
  | struct {name : String} {kind : StructKind} {fields fields' : List TypedName} :
      List.Forall₂ (TypedName.Rewrites rewriting hidden) fields fields' →
      Rewrites (.struct name kind fields) (.struct name kind fields')
  | enum {name : String} {base base' : Option TypeExpr} {variants variants' : List EnumVariant} :
      Option.Rel (TypeExpr.Rewrites rewriting hidden) base base' →
      List.Forall₂ (EnumVariant.Rewrites rewriting hidden) variants variants' →
      Rewrites (.enum name base variants) (.enum name base' variants')
  | function {decl decl' : FunctionDecl} :
      decl.Rewrites rewriting hidden decl' → Rewrites (.function decl) (.function decl')

inductive ModuleItem.Rewrites : ModuleItem → ModuleItem → Prop where
  | const {decl decl' : ConstDecl} :
      decl.Rewrites rewriting hidden decl' → Rewrites (.const decl) (.const decl')
  | declare {name : String} {type type' : TypeExpr} {value value' : Expr} :
      type.Rewrites rewriting hidden type' → value.Rewrites rewriting hidden value' →
      Rewrites (.declare name type value) (.declare name type' value')
  | var {name : String} {type type' : TypeExpr} :
      type.Rewrites rewriting hidden type' → Rewrites (.var name type) (.var name type')

end Bodies

theorem PackageItem.Rewrites.name_eq {rewriting : Rewriting} {hidden : List String}
    {item lowered : PackageItem} (rewrites : item.Rewrites rewriting hidden lowered) :
    lowered.name = item.name := by
  cases rewrites with
  | const decl =>
    cases decl
    rfl
  | typeDef type => rfl
  | struct fields => rfl
  | enum base variants => rfl
  | function decl =>
    cases decl
    rfl

end Monomorph
