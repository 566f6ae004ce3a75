import Monomorph.Proofs.Denotation.Resolver
import Monomorph.Proofs.Result.Completion
import Monomorph.Proofs.Result.Emitted

/-! The bodies of specialized packages.

A specialized package has an item for each item of its generic package, of the same name
and kind and with the same fields, variants and parameters. Constants and enum values have
become expressions that evaluate to the same values wherever they stand. Outside of
function bodies every width and length is the literal of the size that it denotes where
the parameters are the arguments of the instance.
-/

set_option autoImplicit false

namespace Monomorph

/-- An expression evaluates to an equal value wherever it stands, under a default width. -/
def Expr.Restates (defaultWidth : Nat) (expr : Expr) (value : Value) : Prop :=
  ∃ again, again.same value = true ∧ ∀ (bindings : Bindings) (resolver : Resolver EvalError Id),
    (Evaluator.eval ⟨bindings, defaultWidth⟩ resolver expr).run = .ok again

/-- A literal, or the negation of one. -/
inductive Expr.Literally : Expr → Prop where
  | direct {literal : Literal} : Literally (.literal literal)
  | negated {literal : Literal} : Literally (.unary .neg (.literal literal))

theorem Value.literally_toExpr (value : Value) (defaultWidth : Nat) : (value.toExpr defaultWidth).Literally := by
  cases value with
  | bool value => exact .direct
  | int value =>
    simp only [Value.toExpr, IntValue.toExpr]
    split
    · exact .direct
    split
    · split <;> exact .direct
    split
    · split
      · exact .negated
      · exact .direct
    · exact .direct

theorem Expr.Spells.eval {evaluator : Evaluator} {expr : Expr} {value : Value}
    (spells : expr.Spells evaluator value) (bindings : Bindings) (resolver : Resolver EvalError Id) :
    (Evaluator.eval ⟨bindings, evaluator.defaultWidth⟩ resolver expr).run = .ok value :=
  congrArg ExceptT.run (spells.eval_eq_pure bindings resolver)

theorem Value.restates_toExpr {value : Value} (formed : value.WellFormed) (evaluator : Evaluator) :
    (value.toExpr evaluator.defaultWidth).Restates evaluator.defaultWidth value :=
  ⟨_, value.same_relit _, (Value.toExpr_spells formed).eval⟩

theorem Value.toInt_of_toCount? {value : Value} {count : Nat} (counted : value.toCount? = some count) :
    ∃ found : IntValue, value = .int found ∧ found.toInt = count := by
  cases value with
  | bool value => cases counted
  | int value =>
    refine ⟨value, rfl, ?_⟩
    simp only [toCount?, IntValue.toCount?] at counted
    by_cases negative : value.isNegative = true
    · rw [if_pos negative] at counted
      cases counted
    · rw [if_neg negative] at counted
      split at counted
      · cases counted
        exact if_neg negative
      · cases counted

namespace Program

variable (program : Program) (registry : Registry)

/-- The literal of a size. It has no width of its own, is positive and below `2 ^ 64`, and is the integer
that the size denotes. -/
inductive SizeFolds (context : Context) : Expr → Expr → Prop where
  | intro {size : Expr} {found : IntValue} {count : Nat} :
      program.ExprValue registry .value context.scope context.position context.evaluator size (.int found) →
      found.toInt = count → 1 ≤ count → count < 2 ^ 64 →
      SizeFolds context size (.literal (.int (BitVec.ofNat 128 count) none false))

/-- An expression that evaluates to what another one denotes. -/
def EncodingFolds (context : Context) (expr folded : Expr) : Prop :=
  ∃ value, program.ExprValue registry .value context.scope context.position context.evaluator expr value ∧
    folded.Restates program.emptyEvaluator.defaultWidth value

/-- What becomes of an instance outside of function bodies: every size and encoding is folded, no
identifier is left, and references are directed. -/
def folding (context : Context) : Rewriting where
  ident _ _ _ := False
  reference := program.Directs registry context.scope context.position
  folds _ _ := true
  size := program.SizeFolds registry context
  encoding := program.EncodingFolds registry context

/-- What an item of an instance has to do with the item of its generic package, given the constants of the
instance. In function bodies, only references and parameters that are not hidden are replaced, and sizes
folded that mention nothing hidden. -/
inductive ItemFaithful (constants : String → Option Value) (context : Context) :
    PackageItem → PackageItem → Prop where
  | const {decl : ConstDecl} {type : Option TypeExpr} {literal : Expr} {value : Value} :
      Option.Rel (TypeExpr.Rewrites (program.folding registry context) []) decl.type type →
      literal.Literally → constants decl.name = some value →
      literal.Restates program.emptyEvaluator.defaultWidth value →
      ItemFaithful constants context (.const decl) (.const ⟨decl.name, type, literal, decl.span⟩)
  | typeDef {name : String} {type type' : TypeExpr} :
      type.Rewrites (program.folding registry context) [] type' →
      ItemFaithful constants context (.typeDef name type) (.typeDef name type')
  | struct {name : String} {kind : StructKind} {fields fields' : List TypedName} :
      List.Forall₂ (TypedName.Rewrites (program.folding registry context) []) fields fields' →
      ItemFaithful constants context (.struct name kind fields) (.struct name kind fields')
  | enum {name : String} {base base' : Option TypeExpr} {variants variants' : List EnumVariant} :
      Option.Rel (TypeExpr.Rewrites (program.folding registry context) []) base base' →
      List.Forall₂ (EnumVariant.Rewrites (program.folding registry context) []) variants variants' →
      ItemFaithful constants context (.enum name base variants) (.enum name base' variants')
  | function {name : String} {parameters parameters' : List TypedName} {result result' : Option TypeExpr}
      {body body' : List Statement} :
      List.Forall₂ (TypedName.Rewrites (program.folding registry context) []) parameters parameters' →
      Option.Rel (TypeExpr.Rewrites (program.folding registry context) []) result result' →
      Statement.ListRewrites (program.rewriting registry context) (parameters.map (·.name)) body body' →
      ItemFaithful constants context (.function ⟨name, parameters, result, body⟩)
        (.function ⟨name, parameters', result', body'⟩)

end Program

/-- The items of a specialized package are those of its generic package, one by one and in order, where the
parameters have the values that the registry holds for the instance. -/
def SpecializedPackage.Faithful (package : SpecializedPackage) (program : Program) (registry : Registry) : Prop :=
  ∃ source, program.generic? package.target.base = some source ∧
    registry.resolve package.target = .ok package.arguments ∧
    List.Forall₂ (fun entry item => program.ItemFaithful registry package.constant?
        (Program.instanceContext package.target
          (program.emptyEvaluator.bindAll ((source.parameters.map (·.name)).zip package.arguments))
          source.span entry.2) entry.1 item)
      source.items.zipIdx package.items

section Folding

variable {program : Program} {registry : Registry} {context : Context}

theorem Program.folds_rewriting (specializes : context.specializes = true) (expr : Expr) :
    (program.rewriting registry context).folds [] expr = true := by
  simp [rewriting, Context.folds, specializes, Expr.mentions_nil]

theorem Expr.SizeRewrites.folding (specializes : context.specializes = true) {size lowered : Expr}
    (rewrites : size.SizeRewrites (program.rewriting registry context) [] lowered) :
    size.SizeRewrites (program.folding registry context) [] lowered := by
  rw [Expr.SizeRewrites, if_pos (Program.folds_rewriting specializes size)] at rewrites
  obtain ⟨_, value, count, evaluated, counted, positive, rfl⟩ := rewrites
  obtain ⟨found, rfl, denotes⟩ := Value.toInt_of_toCount? counted
  exact .intro evaluated denotes positive (Value.lt_of_toCount? counted)

theorem Expr.EncodingRewrites.folding (formed : registry.WellFormed) (specializes : context.specializes = true)
    (made : program.evaluator registry context.scope = .ok context.evaluator) {value lowered : Expr}
    (rewrites : value.EncodingRewrites (program.rewriting registry context) [] lowered) :
    value.EncodingRewrites (program.folding registry context) [] lowered := by
  rw [Expr.EncodingRewrites, if_pos (Program.folds_rewriting specializes value)] at rewrites
  obtain ⟨_, found, evaluated, rfl⟩ := rewrites
  refine ⟨found, evaluated, ?_⟩
  rw [Program.defaultWidth_evaluator made]
  exact Value.restates_toExpr (evaluated.wellFormed formed (Program.wellFormed_evaluator formed made)) _

theorem TypeExpr.Rewrites.folding (specializes : context.specializes = true) {type lowered : TypeExpr}
    (rewrites : type.Rewrites (program.rewriting registry context) [] lowered) :
    type.Rewrites (program.folding registry context) [] lowered := by
  induction rewrites with
  | oneLogic => exact .oneLogic
  | oneBit => exact .oneBit
  | logic width => exact .logic (width.folding specializes)
  | bit width => exact .bit (width.folding specializes)
  | int => exact .int
  | bool => exact .bool
  | named => exact .named
  | reference directs => exact .reference directs
  | array element length ih => exact .array ih (length.folding specializes)

theorem TypeExpr.folding_of_rel (specializes : context.specializes = true) {type lowered : Option TypeExpr}
    (related : Option.Rel (TypeExpr.Rewrites (program.rewriting registry context) []) type lowered) :
    Option.Rel (TypeExpr.Rewrites (program.folding registry context) []) type lowered := by
  cases related with
  | none => exact .none
  | some rewrites => exact .some (rewrites.folding specializes)

theorem TypedName.Rewrites.folding (specializes : context.specializes = true) {entry lowered : TypedName}
    (rewrites : entry.Rewrites (program.rewriting registry context) [] lowered) :
    entry.Rewrites (program.folding registry context) [] lowered := by
  cases rewrites with
  | intro type => exact .intro (type.folding specializes)

theorem EnumVariant.Rewrites.folding (formed : registry.WellFormed) (specializes : context.specializes = true)
    (made : program.evaluator registry context.scope = .ok context.evaluator) {variant lowered : EnumVariant}
    (rewrites : variant.Rewrites (program.rewriting registry context) [] lowered) :
    variant.Rewrites (program.folding registry context) [] lowered := by
  cases rewrites with
  | plain => exact .plain
  | encoded value => exact .encoded (value.folding formed specializes made)

end Folding

namespace Program

variable {program : Program} {registry : Registry}

theorem ItemSpecializes.faithful {context : Context} {constants : String → Option Value} {item lowered : PackageItem}
    (specialized : program.ItemSpecializes registry context item lowered) (formed : registry.WellFormed)
    (specializes : context.specializes = true) (unhidden : context.hidden = [])
    (made : program.evaluator registry context.scope = .ok context.evaluator)
    (listed : ∀ decl value, item = .const decl →
      program.ConstantValue registry .value context.scope decl.name value → constants decl.name = some value) :
    program.ItemFaithful registry constants context item lowered := by
  cases specialized with
  | @const decl type value denotes type =>
    rw [unhidden] at type
    have width := defaultWidth_evaluator made
    have formed := denotes.wellFormed formed
    refine .const (TypeExpr.folding_of_rel specializes type) ?_ (listed decl value rfl denotes) ?_
    · exact Value.literally_toExpr _ _
    · rw [width]
      exact Value.restates_toExpr formed _
  | item notConst rewrites =>
    rw [unhidden] at rewrites
    cases rewrites with
    | const decl => cases notConst
    | typeDef type => exact .typeDef (type.folding specializes)
    | struct fields => exact .struct (fields.imp fun _ _ field => field.folding specializes)
    | enum base variants =>
      exact .enum (TypeExpr.folding_of_rel specializes base)
        (variants.imp fun _ _ variant => variant.folding formed specializes made)
    | function decl =>
      cases decl with
      | intro parameters result body =>
        rw [List.append_nil] at body
        exact .function (parameters.imp fun _ _ parameter => parameter.folding specializes)
          (TypeExpr.folding_of_rel specializes result) body

theorem Specializes.constant?_eq {package : SpecializedPackage} (specializes : program.Specializes registry package)
    {source : Package} (generic : program.generic? package.target.base = some source) {decl : ConstDecl}
    (declared : PackageItem.const decl ∈ source.items) {value : Value}
    (denotes : program.ConstantValue registry .value (.instantiated package.target) decl.name value) :
    package.constant? decl.name = some value := by
  obtain ⟨listed, member⟩ := specializes.listed source generic decl declared
  cases found : package.constant? decl.name with
  | none =>
    have absent := List.lookup_eq_none_iff.mp found _ member
    simp at absent
  | some other =>
    have answered := specializes.constants _ other (Bindings.mem_of_get? found)
    rw [answered.unique denotes]

end Program

namespace SourceUnit

variable {unit : SourceUnit} {settings : Settings}

/-- Whether the pass succeeds or fails, the items of every package that it completed are faithful to those of
the generic package. -/
theorem faithful_of_mem_packages {package : SpecializedPackage}
    (member : package ∈ (unit.instantiate settings).packages) :
    package.Faithful (.ofUnit unit settings) (unit.finalRegistry settings) := by
  have specializes := specializes_of_mem_packages member
  obtain ⟨source, evaluator, generic, made, items⟩ := specializes.body
  have completed : package ∈ (unit.finalState settings).specialized := packages_instantiate unit settings ▸ member
  have resolved : (unit.finalRegistry settings).resolve package.target = .ok package.arguments :=
    Registry.resolve_eq_ok.mpr ((unit.rests_finalState settings).coherent.arguments package completed)
  have evaluator_eq : evaluator = (Program.ofUnit unit settings).emptyEvaluator.bindAll
      ((source.parameters.map (·.name)).zip package.arguments) := by
    simp only [Program.evaluator, resolved, generic] at made
    exact (Except.ok.inj made).symm
  subst evaluator_eq
  have formed := (unit.rests_finalState settings).consistent.formed
  -- each item stands where it does in the generic package
  have placed := (List.forall₂_and_left source.items.zipIdx package.items).mpr ⟨fun _ there => there, items⟩
  refine ⟨source, generic, resolved, placed.imp fun entry item specialized => ?_⟩
  refine specialized.2.faithful formed rfl rfl made fun decl value same denotes => ?_
  apply specializes.constant?_eq generic _ denotes
  rw [← same]
  exact List.fst_mem_of_mem_zipIdx specialized.1

end SourceUnit

def frameUnit : SourceUnit :=
  ⟨"frame",
    [.package ⟨"Frame", [⟨"N", .const, nowhere⟩],
      [.const ⟨"Offset", none, .unary .neg (.ident "N"), nowhere⟩,
        .const ⟨"Bits", some (.int .u32), .binary .mul (.ident "N") (.int 2), nowhere⟩,
        .typeDef "Lanes" (.array (.array (.logic (some (.ident "Bits"))) (.ident "N")) (.int 2)),
        .struct "Word" .union [⟨"whole", .logic (some (.ident "Bits"))⟩, ⟨"half", .bit (some (.ident "N"))⟩],
        .enum "Mode" (some (.logic (some (.ident "N")))) [⟨"Idle", none⟩, ⟨"Busy", some (.ident "Offset")⟩],
        .function ⟨"pick", [⟨"word", .named "Word"⟩], some (.logic (some (.ident "Bits"))),
          [.returns (.field (.ident "word") "whole")]⟩], nowhere⟩,
      .module ⟨"Top", [.var "lanes" (.reference ⟨"Frame", [.int 4], ["Lanes"], nowhere⟩)], nowhere⟩]⟩

theorem faithful_frameUnit : ∃ package ∈ (frameUnit.instantiate {}).packages,
    package.constants = [("Offset", .int ⟨0xfffffffc, 32, true, false⟩), ("Bits", .int ⟨8, 32, false, true⟩)] ∧
    package.items.map (·.name) = ["Offset", "Bits", "Lanes", "Word", "Mode", "pick"] ∧
    package.Faithful (.ofUnit frameUnit {}) (frameUnit.finalRegistry {}) := by
  have emitted : (frameUnit.run? {} 20).map (fun result =>
      result.2.specialized.map fun package => (package.constants, package.items.map (·.name)))
        = some [([("Offset", .int ⟨0xfffffffc, 32, true, false⟩), ("Bits", .int ⟨8, 32, false, true⟩)],
          ["Offset", "Bits", "Lanes", "Word", "Mode", "pick"])] := by
    decide +kernel
  obtain ⟨result, ran, listed⟩ := Option.map_eq_some_iff.mp emitted
  obtain ⟨package, rest, specialized, same, _⟩ := List.map_eq_cons_iff.mp listed
  rw [Prod.mk.injEq] at same
  have member : package ∈ (frameUnit.instantiate {}).packages := by
    rw [SourceUnit.packages_instantiate, SourceUnit.endFrom_eq ran, specialized]
    exact List.mem_cons_self
  exact ⟨package, member, same.1, same.2, SourceUnit.faithful_of_mem_packages member⟩

end Monomorph
