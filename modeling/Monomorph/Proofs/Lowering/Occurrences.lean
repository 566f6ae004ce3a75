import Monomorph.Proofs.Lowering.Rewriting

/-! Where expressions stand in an item.

The expressions of an item are listed in the order of the text, each with the names of
the function parameters and locals that hide other names there. An address leads to one
of them and from there to a part of it. Lowering keeps the list in its order, so that
what stands at an address before and after it can be compared.
-/

set_option autoImplicit false

namespace Monomorph

/-- One step down in an expression: to an operand, or into the arguments of a reference. -/
inductive Step where
  | operand (index : Nat)
  | argument (index : Nat)
  deriving DecidableEq, Repr

namespace Expr

def parts : Expr → List Expr
  | .binary _ left right => [left, right]
  | .unary _ operand => [operand]
  | .call _ arguments => arguments
  | .ternary condition whenTrue whenFalse => [condition, whenTrue, whenFalse]
  | .field base _ => [base]
  | .literal _ | .ident _ | .reference .. => []

def arguments : Expr → List Expr
  | .reference _ arguments _ _ => arguments
  | .literal _ | .ident _ | .binary .. | .unary .. | .call .. | .ternary .. | .field .. => []

def down? (expr : Expr) : Step → Option Expr
  | .operand index => expr.parts[index]?
  | .argument index => expr.arguments[index]?

def at? : Expr → List Step → Option Expr
  | expr, [] => some expr
  | expr, step :: path => (expr.down? step).bind fun part => part.at? path

theorem listMentions_iff {names : List String} {exprs : List Expr} :
    listMentions names exprs = true ↔ ∃ expr ∈ exprs, expr.mentions names = true := by
  induction exprs with
  | nil => simp [listMentions]
  | cons first rest ih => simp [listMentions, ih]

theorem mentions_of_down? {names : List String} {expr part : Expr} {step : Step} (found : expr.down? step = some part)
    (mentioned : part.mentions names = true) : expr.mentions names = true := by
  cases step with
  | operand index =>
    have member : part ∈ expr.parts := List.mem_of_getElem? found
    cases expr with
    | literal _ | ident _ | reference _ _ _ _ => cases member
    | binary op left right =>
      rw [mentions, Bool.or_eq_true]
      simp only [parts, List.mem_cons, List.not_mem_nil, or_false] at member
      rcases member with rfl | rfl
      · exact .inl mentioned
      · exact .inr mentioned
    | unary op operand =>
      rw [mentions, ← List.mem_singleton.mp member]
      exact mentioned
    | call function arguments =>
      rw [mentions, listMentions_iff]
      exact ⟨part, member, mentioned⟩
    | ternary condition whenTrue whenFalse =>
      rw [mentions, Bool.or_eq_true, Bool.or_eq_true]
      simp only [parts, List.mem_cons, List.not_mem_nil, or_false] at member
      rcases member with rfl | rfl | rfl
      · exact .inl (.inl mentioned)
      · exact .inl (.inr mentioned)
      · exact .inr mentioned
    | field base name =>
      rw [mentions, ← List.mem_singleton.mp member]
      exact mentioned
  | argument index =>
    have member : part ∈ expr.arguments := List.mem_of_getElem? found
    cases expr with
    | reference package arguments members span =>
      rw [mentions, listMentions_iff]
      exact ⟨part, member, mentioned⟩
    | _ => cases member

theorem mentions_of_at? {names : List String} {expr part : Expr} {path : List Step}
    (found : expr.at? path = some part) (mentioned : part.mentions names = true) : expr.mentions names = true := by
  induction path generalizing expr with
  | nil =>
    cases found
    exact mentioned
  | cons step path ih =>
    obtain ⟨next, here, found⟩ := Option.bind_eq_some_iff.mp found
    exact mentions_of_down? here (ih found)

end Expr

/-- A way down that does not lead into the arguments of a reference. -/
def Outside (path : List Step) : Prop := ∀ index, Step.argument index ∉ path

theorem Outside.nil : Outside [] := fun _ => List.not_mem_nil

theorem Outside.operand {path : List Step} (outside : Outside path) (index : Nat) :
    Outside (.operand index :: path) := by
  intro other member
  rcases List.mem_cons.mp member with same | later
  · cases same
  · exact outside other later

section Expressions

variable {rewriting : Rewriting} {hidden : List String}

theorem Expr.Rewrites.shape {expr lowered : Expr} (rewrites : expr.Rewrites rewriting hidden lowered) :
    (∃ name, expr = .ident name ∧ rewriting.ident hidden name lowered) ∨
      (∃ reference target, expr = .ofReference reference ∧ lowered = .ofReference target ∧
        rewriting.reference reference target) ∨
      lowered.arguments = [] ∧ List.Forall₂ (Expr.Rewrites rewriting hidden) expr.parts lowered.parts := by
  cases rewrites with
  | literal => exact .inr (.inr ⟨rfl, .nil⟩)
  | ident leads => exact .inl ⟨_, rfl, leads⟩
  | reference leads => exact .inr (.inl ⟨_, _, rfl, rfl, leads⟩)
  | binary left right => exact .inr (.inr ⟨rfl, .cons left (.cons right .nil)⟩)
  | unary operand => exact .inr (.inr ⟨rfl, .cons operand .nil⟩)
  | call arguments => exact .inr (.inr ⟨rfl, arguments⟩)
  | ternary condition whenTrue whenFalse =>
    exact .inr (.inr ⟨rfl, .cons condition (.cons whenTrue (.cons whenFalse .nil))⟩)
  | field base => exact .inr (.inr ⟨rfl, .cons base .nil⟩)

/-- Outside of arguments, each part of an expression is rewritten where it stands. -/
theorem Expr.Rewrites.at? {expr lowered part : Expr} {path : List Step}
    (rewrites : expr.Rewrites rewriting hidden lowered) (outside : Outside path)
    (found : expr.at? path = some part) :
    ∃ part', lowered.at? path = some part' ∧ part.Rewrites rewriting hidden part' := by
  induction path generalizing expr lowered with
  | nil =>
    cases found
    exact ⟨lowered, rfl, rewrites⟩
  | cons step path ih =>
    obtain ⟨next, here, rest⟩ := Option.bind_eq_some_iff.mp found
    cases step with
    | argument index => exact absurd List.mem_cons_self (outside index)
    | operand index =>
      rcases rewrites.shape with ⟨_, rfl, _⟩ | ⟨_, _, rfl, _, _⟩ | ⟨_, parts⟩
      · cases here
      · cases here
      · obtain ⟨next', here', rewrites⟩ := exists_getElem?_of_forall₂ parts here
        obtain ⟨part', rest', rewrites⟩ :=
          ih rewrites (fun index member => outside index (List.mem_cons_of_mem _ member)) rest
        refine ⟨part', ?_, rewrites⟩
        rw [Expr.at?, Expr.down?, here']
        exact rest'

/-- Where references lose their arguments, an identifier of a rewritten expression stands in what has
replaced an identifier. -/
theorem Expr.Rewrites.ident_of_at? {expr lowered : Expr} {path : List Step} {name : String}
    (rewrites : expr.Rewrites rewriting hidden lowered)
    (bare : ∀ reference target, rewriting.reference reference target → target.arguments = [])
    (found : lowered.at? path = some (.ident name)) :
    ∃ source image path', rewriting.ident hidden source image ∧ image.at? path' = some (.ident name) := by
  induction path generalizing expr lowered with
  | nil =>
    cases found
    cases rewrites with
    | ident leads => exact ⟨_, _, [], leads, rfl⟩
  | cons step path ih =>
    obtain ⟨next, here, rest⟩ := Option.bind_eq_some_iff.mp found
    rcases rewrites.shape with ⟨source, _, leads⟩ | ⟨_, target, _, rfl, leads⟩ | ⟨none, parts⟩
    · exact ⟨source, lowered, step :: path, leads, found⟩
    · cases step with
      | operand index => cases here
      | argument index =>
        have none : (Expr.ofReference target).arguments = [] := bare _ _ leads
        rw [Expr.down?, none] at here
        cases here
    · cases step with
      | argument index =>
        rw [Expr.down?, none] at here
        cases here
      | operand index =>
        obtain ⟨before, _, rewrites⟩ := exists_getElem?_of_forall₂ parts.flip here
        exact ih rewrites rest

/-- What becomes of an expression of an item: it is rewritten, or folded as a whole. -/
inductive Expr.Becomes (rewriting : Rewriting) (hidden : List String) (expr lowered : Expr) : Prop where
  | rewritten : expr.Rewrites rewriting hidden lowered → Becomes rewriting hidden expr lowered
  | folded : rewriting.folds hidden expr = true → rewriting.size expr lowered ∨ rewriting.encoding expr lowered →
      Becomes rewriting hidden expr lowered

theorem Expr.SizeRewrites.becomes {size lowered : Expr} (rewrites : size.SizeRewrites rewriting hidden lowered) :
    size.Becomes rewriting hidden lowered := by
  unfold Expr.SizeRewrites at rewrites
  split at rewrites
  · exact .folded ‹_› (.inl rewrites)
  · exact .rewritten rewrites

theorem Expr.EncodingRewrites.becomes {value lowered : Expr}
    (rewrites : value.EncodingRewrites rewriting hidden lowered) : value.Becomes rewriting hidden lowered := by
  unfold Expr.EncodingRewrites at rewrites
  split at rewrites
  · exact .folded ‹_› (.inr rewrites)
  · exact .rewritten rewrites

end Expressions

/-- An expression, and the names of the function parameters and locals in whose scope it stands. -/
structure ScopedExpr where
  bound : List String
  expr : Expr
  deriving Repr

def Expr.listScoped (bound : List String) (exprs : List Expr) : List ScopedExpr := exprs.map (⟨bound, ·⟩)

/-- The expressions of a type. A reference to a type is one of them. -/
def TypeExpr.exprs : TypeExpr → List Expr
  | .logic (some width) | .bit (some width) => [width]
  | .reference target => [.ofReference target]
  | .array element length => element.exprs ++ [length]
  | .logic none | .bit none | .int _ | .bool | .named _ => []

def TypedName.listExprs (entries : List TypedName) : List Expr := entries.flatMap (·.type.exprs)

mutual

def Statement.exprs (bound : List String) : Statement → List ScopedExpr
  | .declare _ type value => Expr.listScoped bound (type.exprs ++ [value])
  | .assign _ value | .returns value => [⟨bound, value⟩]
  | .branch condition whenTrue whenFalse =>
    ⟨bound, condition⟩ :: (Statement.listExprs bound whenTrue ++ Statement.listExprs bound whenFalse)

/-- A local is in scope in the statements after it. -/
def Statement.listExprs (bound : List String) : List Statement → List ScopedExpr
  | [] => []
  | first :: rest => first.exprs bound ++ Statement.listExprs (first.declared ++ bound) rest

end

def PackageItem.exprs : PackageItem → List ScopedExpr
  | .const decl => Expr.listScoped [] (decl.type.elim [] TypeExpr.exprs ++ [decl.value])
  | .typeDef _ type => Expr.listScoped [] type.exprs
  | .struct _ _ fields => Expr.listScoped [] (TypedName.listExprs fields)
  | .enum _ base variants =>
    Expr.listScoped [] (base.elim [] TypeExpr.exprs ++ variants.flatMap (·.value.toList))
  | .function decl =>
    Expr.listScoped [] (TypedName.listExprs decl.parameters ++ decl.result.elim [] TypeExpr.exprs) ++
      Statement.listExprs (decl.parameters.map (·.name)) decl.body

/-- A place among the expressions of an item, and a way down from there. -/
structure Address where
  place : Nat
  path : List Step
  deriving DecidableEq, Repr

def PackageItem.at? (item : PackageItem) (address : Address) : Option ScopedExpr :=
  item.exprs[address.place]?.bind fun whole => (whole.expr.at? address.path).map fun part => ⟨whole.bound, part⟩

theorem PackageItem.at?_eq_some {item : PackageItem} {address : Address} {bound : List String} {part : Expr} :
    item.at? address = some ⟨bound, part⟩ ↔
      ∃ whole, item.exprs[address.place]? = some ⟨bound, whole⟩ ∧ whole.at? address.path = some part := by
  unfold PackageItem.at?
  constructor
  · intro found
    obtain ⟨⟨names, whole⟩, here, found⟩ := Option.bind_eq_some_iff.mp found
    obtain ⟨below, there, same⟩ := Option.map_eq_some_iff.mp found
    cases same
    exact ⟨whole, here, there⟩
  · rintro ⟨whole, here, there⟩
    rw [here, Option.bind_some, there, Option.map_some]

theorem PackageItem.bound_eq_nil_of_const {decl : ConstDecl} {address : Address} {bound : List String} {part : Expr}
    (found : (PackageItem.const decl).at? address = some ⟨bound, part⟩) : bound = [] := by
  obtain ⟨whole, here, _⟩ := PackageItem.at?_eq_some.mp found
  obtain ⟨_, _, same⟩ := List.mem_map.mp (List.mem_of_getElem? here)
  cases same
  rfl

section Items

variable {rewriting : Rewriting} {hidden : List String}

/-- An expression of an item stays in its place and in the scope of the same names. -/
def ScopedExpr.Becomes (rewriting : Rewriting) (source lowered : ScopedExpr) : Prop :=
  lowered.bound = source.bound ∧ source.expr.Becomes rewriting source.bound lowered.expr

theorem ScopedExpr.becomes_listScoped {exprs lowered : List Expr}
    (all : List.Forall₂ (Expr.Becomes rewriting hidden) exprs lowered) :
    List.Forall₂ (ScopedExpr.Becomes rewriting) (Expr.listScoped hidden exprs) (Expr.listScoped hidden lowered) :=
  List.rel_map (fun _ _ becomes => ⟨rfl, becomes⟩) all

theorem TypeExpr.Rewrites.exprs {type lowered : TypeExpr} (rewrites : type.Rewrites rewriting hidden lowered) :
    List.Forall₂ (Expr.Becomes rewriting hidden) type.exprs lowered.exprs := by
  induction rewrites with
  | oneLogic | oneBit | int | bool | named => exact .nil
  | logic width => exact .cons width.becomes .nil
  | bit width => exact .cons width.becomes .nil
  | reference leads => exact .cons (.rewritten (.reference leads)) .nil
  | array element length ih => exact List.rel_append ih (.cons length.becomes .nil)

theorem TypeExpr.exprs_of_rel {type lowered : Option TypeExpr}
    (related : Option.Rel (TypeExpr.Rewrites rewriting hidden) type lowered) :
    List.Forall₂ (Expr.Becomes rewriting hidden) (type.elim [] TypeExpr.exprs) (lowered.elim [] TypeExpr.exprs) := by
  cases related with
  | none => exact .nil
  | some rewrites => exact rewrites.exprs

theorem TypedName.Rewrites.name_eq {entry lowered : TypedName} (rewrites : entry.Rewrites rewriting hidden lowered) :
    entry.name = lowered.name := by
  cases rewrites
  rfl

theorem TypedName.exprs_of_forall₂ {entries lowered : List TypedName}
    (all : List.Forall₂ (TypedName.Rewrites rewriting hidden) entries lowered) :
    List.Forall₂ (Expr.Becomes rewriting hidden) (TypedName.listExprs entries) (TypedName.listExprs lowered) := by
  apply List.rel_flatMap all
  rintro _ _ ⟨type⟩
  exact type.exprs

theorem EnumVariant.Rewrites.exprs {variant lowered : EnumVariant}
    (rewrites : variant.Rewrites rewriting hidden lowered) :
    List.Forall₂ (Expr.Becomes rewriting hidden) variant.value.toList lowered.value.toList := by
  cases rewrites with
  | plain => exact .nil
  | encoded value => exact .cons value.becomes .nil

theorem Statement.Rewrites.declared_eq {statement lowered : Statement}
    (rewrites : Statement.Rewrites rewriting hidden statement lowered) : lowered.declared = statement.declared := by
  cases rewrites <;> rfl

mutual

theorem Statement.Rewrites.exprs : ∀ {hidden : List String} {statement lowered : Statement},
    Statement.Rewrites rewriting hidden statement lowered →
    List.Forall₂ (ScopedExpr.Becomes rewriting) (statement.exprs hidden) (lowered.exprs hidden)
  | _, .declare .., _, .declare type value =>
    ScopedExpr.becomes_listScoped (List.rel_append type.exprs (.cons (.rewritten value) .nil))
  | _, .assign .., _, .assign value => .cons ⟨rfl, .rewritten value⟩ .nil
  | _, .returns _, _, .returns value => .cons ⟨rfl, .rewritten value⟩ .nil
  | _, .branch .., _, .branch condition whenTrue whenFalse =>
    .cons ⟨rfl, .rewritten condition⟩ (List.rel_append whenTrue.exprs whenFalse.exprs)

theorem Statement.ListRewrites.exprs : ∀ {hidden : List String} {statements lowered : List Statement},
    Statement.ListRewrites rewriting hidden statements lowered →
    List.Forall₂ (ScopedExpr.Becomes rewriting) (Statement.listExprs hidden statements)
      (Statement.listExprs hidden lowered)
  | _, [], _, .nil => .nil
  | _, _ :: _, _, .cons first rest => by
    rw [Statement.listExprs, Statement.listExprs, first.declared_eq]
    exact List.rel_append first.exprs rest.exprs

end

theorem PackageItem.Rewrites.exprs {item lowered : PackageItem} (rewrites : item.Rewrites rewriting [] lowered) :
    List.Forall₂ (ScopedExpr.Becomes rewriting) item.exprs lowered.exprs := by
  cases rewrites with
  | const decl =>
    cases decl with
    | intro type value =>
      exact ScopedExpr.becomes_listScoped (List.rel_append (TypeExpr.exprs_of_rel type) (.cons (.rewritten value) .nil))
  | typeDef type => exact ScopedExpr.becomes_listScoped type.exprs
  | struct fields => exact ScopedExpr.becomes_listScoped (TypedName.exprs_of_forall₂ fields)
  | enum base variants =>
    exact ScopedExpr.becomes_listScoped (List.rel_append (TypeExpr.exprs_of_rel base)
      (List.rel_flatMap variants fun _ _ variant => variant.exprs))
  | function decl =>
    cases decl with
    | intro parameters result body =>
      have names := map_eq_of_forall₂ parameters fun _ _ => TypedName.Rewrites.name_eq
      rw [List.append_nil] at body
      rw [PackageItem.exprs, PackageItem.exprs, ← names]
      exact List.rel_append (ScopedExpr.becomes_listScoped (List.rel_append (TypedName.exprs_of_forall₂ parameters)
        (TypeExpr.exprs_of_rel result))) body.exprs

/-- Where nothing is folded that mentions a hidden name, an expression that mentions one is rewritten where it
stands, outside of arguments. -/
theorem PackageItem.Rewrites.at? {item lowered : PackageItem} (rewrites : item.Rewrites rewriting [] lowered)
    (sparing : ∀ hidden expr, rewriting.folds hidden expr = true → expr.mentions hidden = false)
    {address : Address} (outside : Outside address.path) {bound : List String} {part : Expr}
    (found : item.at? address = some ⟨bound, part⟩) (mentioned : part.mentions bound = true) :
    ∃ part', lowered.at? address = some ⟨bound, part'⟩ ∧ part.Rewrites rewriting bound part' := by
  obtain ⟨whole, here, there⟩ := PackageItem.at?_eq_some.mp found
  obtain ⟨⟨names, whole'⟩, here', same, becomes⟩ := exists_getElem?_of_forall₂ rewrites.exprs here
  cases same
  cases becomes with
  | folded folds _ =>
    have spared := sparing bound whole folds
    rw [Expr.mentions_of_at? there mentioned] at spared
    cases spared
  | rewritten rewrites =>
    obtain ⟨part', there', rewrites⟩ := rewrites.at? outside there
    exact ⟨part', PackageItem.at?_eq_some.mpr ⟨whole', here', there'⟩, rewrites⟩

end Items
end Monomorph
