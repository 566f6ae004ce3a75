import Monomorph.Proofs.Result.Flattened

/-! Constants of instances in the flattened unit.

There a constant of an instance is the literal of its value, and its declared type is
folded. Neither depends on other names any more, and the literal has the declared
type as it stands.
-/

set_option autoImplicit false

namespace Monomorph

mutual

theorem Expr.mentions_nil : ∀ expr : Expr, expr.mentions [] = false
  | .literal _ => rfl
  | .ident _ => rfl
  | .reference _ arguments _ _ => by
    rw [Expr.mentions]
    exact Expr.listMentions_nil arguments
  | .binary _ left right => by
    rw [Expr.mentions, left.mentions_nil, right.mentions_nil]
    rfl
  | .unary _ operand => by
    rw [Expr.mentions]
    exact operand.mentions_nil
  | .call _ arguments => by
    rw [Expr.mentions]
    exact Expr.listMentions_nil arguments
  | .ternary condition whenTrue whenFalse => by
    rw [Expr.mentions, condition.mentions_nil, whenTrue.mentions_nil, whenFalse.mentions_nil]
    rfl
  | .field base _ => by
    rw [Expr.mentions]
    exact base.mentions_nil

theorem Expr.listMentions_nil : ∀ exprs : List Expr, Expr.listMentions [] exprs = false
  | [] => rfl
  | first :: rest => by
    rw [Expr.listMentions, first.mentions_nil, Expr.listMentions_nil rest]
    rfl

end

namespace Value

variable {value result : Value} {count defaultWidth : Nat}

theorem lt_of_toCount? (counted : value.toCount? = some count) : count < UInt64.size := by
  cases value with
  | bool value => cases counted
  | int value =>
    simp only [toCount?, IntValue.toCount?] at counted
    split at counted
    · cases counted
    · split at counted
      · cases counted
        assumption
      · cases counted

theorem toCount?_ofLiteral (small : count < UInt64.size) (defaultWidth : Nat) :
    (Value.int (.ofLiteral (BitVec.ofNat 128 count) defaultWidth)).toCount? = some count := by
  have bits : (BitVec.ofNat 128 count).toNat = count := by
    rw [BitVec.toNat_ofNat]
    exact Nat.mod_eq_of_lt (Nat.lt_trans small (by decide))
  simp [toCount?, IntValue.toCount?, IntValue.isNegative, IntValue.ofLiteral, bits, small]

theorem convert?_relit {fixed : Option ValueType} (converted : value.convert? fixed = some result) :
    (result.relit defaultWidth).convert? fixed = some (result.relit defaultWidth) := by
  cases fixed with
  | none => rfl
  | some expected =>
    -- a converted integer has its width written, and its literal keeps it so
    have kept {width : Nat} {signed : Bool} {found : IntValue} (sized : found.sized = true)
        (same : found.width = width ∧ found.signed = signed) :
        ((Value.int found).relit defaultWidth).coerce? (.int width signed)
          = some ((Value.int found).relit defaultWidth) := by
      rw [relit, IntValue.relit_of_sized sized]
      simp [coerce?, sized, same]
    simp only [convert?] at converted ⊢
    unfold coerce? at converted
    split at converted
    · cases converted
      rfl
    · split at converted
      · split at converted
        · cases converted
          exact kept ‹_› ‹_›
        · cases converted
      · split at converted
        · split at converted
          · rename_i retyped made
            cases converted
            unfold IntValue.retyped IntValue.ofBits at made
            split at made
            · cases made
            · cases made
              exact kept rfl ⟨rfl, rfl⟩
          · cases converted
        · cases converted
    · cases converted

end Value

namespace Program

variable {program flat : Program} {registry other : Registry} {reading : Reading} {scope : Scope}
  {position : Nat} {evaluator : Evaluator} {context : Context}

theorem exprValue_of_spells {expr : Expr} {value : Value} (spells : Expr.Spells evaluator expr value) :
    flat.ExprValue other reading scope position evaluator expr value := by
  cases spells with
  | direct found => exact .literal found
  | negated found negated => exact .unary (.literal found) negated

theorem FixedType.of_folded (specializes : context.specializes = true) {type type' : Option TypeExpr}
    (rewrites : Option.Rel (TypeExpr.Rewrites (program.rewriting registry context) []) type type')
    {fixed : Option ValueType}
    (typed : program.FixedType registry .value context.scope context.position context.evaluator type fixed) :
    flat.FixedType other reading scope position evaluator type' fixed := by
  -- no name is hidden at the top of an instance, so every size is folded
  have folds (size : Expr) : (program.rewriting registry context).folds [] size = true := by
    simp [rewriting, Context.folds, specializes, Expr.mentions_nil]
  cases rewrites with
  | none =>
    cases typed
    exact .undeclared
  | some rewrites =>
    cases rewrites with
    | oneLogic =>
      cases typed
      exact .oneLogic
    | oneBit =>
      cases typed
      exact .oneBit
    | logic width =>
      rw [Expr.SizeRewrites, if_pos (folds _)] at width
      obtain ⟨_, value, count, evaluated, counted, positive, rfl⟩ := width
      cases typed with
      | logic again counted' _ within =>
        -- the size that was folded is the one that the type fixes
        cases evaluated.unique again
        cases counted.symm.trans counted'
        exact .logic (.literal rfl) (Value.toCount?_ofLiteral (Value.lt_of_toCount? counted) _) positive within
    | bit width =>
      rw [Expr.SizeRewrites, if_pos (folds _)] at width
      obtain ⟨_, value, count, evaluated, counted, positive, rfl⟩ := width
      cases typed with
      | bit again counted' _ within =>
        cases evaluated.unique again
        cases counted.symm.trans counted'
        exact .bit (.literal rfl) (Value.toCount?_ofLiteral (Value.lt_of_toCount? counted) _) positive within
    | int =>
      cases typed
      exact .int
    | bool =>
      cases typed
      exact .bool
    | named =>
      cases typed
      exact .named
    | reference target =>
      cases typed
      exact .reference
    | array element length =>
      cases typed
      exact .array

theorem ConstantValue.isSome_findConst {name : String} {value : Value}
    (denotes : program.ConstantValue registry reading scope name value) :
    (program.findConst scope name).isSome := by
  cases denotes with
  | intro found made evaluated typed converted =>
    rw [found]
    rfl

def ConstSpecializes (program : Program) (registry : Registry) (context : Context)
    (decl lowered : ConstDecl) : Prop :=
  ∃ value type, program.ConstantValue registry .value context.scope decl.name value ∧
    Option.Rel (TypeExpr.Rewrites (program.rewriting registry context) []) decl.type type ∧
    lowered = ⟨decl.name, type, value.toExpr context.evaluator.defaultWidth, decl.span⟩

theorem ItemSpecializes.const?_rel {item lowered : PackageItem} (unhidden : context.hidden = [])
    (specializes : program.ItemSpecializes registry context item lowered) :
    Option.Rel (program.ConstSpecializes registry context) item.const? lowered.const? := by
  cases specializes with
  | const value type =>
    rw [unhidden] at type
    exact .some ⟨_, _, value, type, rfl⟩
  | item notConst rewrites =>
    have related := rewrites.const?_rel
    rw [notConst] at related ⊢
    rw [eq_none_of_rel related]
    exact .none

theorem Specializes.findConst_rel {package : SpecializedPackage}
    (specializes : program.Specializes registry package) (name : String) :
    ∃ source evaluator, program.generic? package.target.base = some source ∧
      program.evaluator registry (.instantiated package.target) = .ok evaluator ∧
      Option.Rel (fun found found' => found'.1 = found.1 ∧ program.ConstSpecializes registry
          (instanceContext package.target evaluator source.span found.1) found.2 found'.2)
        (source.findConst name) (package.toPackage.findConst name) := by
  obtain ⟨source, evaluator, generic, made, items⟩ := specializes.body
  refine ⟨source, evaluator, generic, made, ?_⟩
  apply Monomorph.findConst_rel PackageItem.const?
    fun index => program.ConstSpecializes registry (instanceContext package.target evaluator source.span index)
  · rintro index decl _ ⟨value, type, _, _, rfl⟩
    rfl
  · exact items.imp fun _ _ specializes => specializes.const?_rel rfl

/-- The literal of a converted value, converted again, is the value as the literal spells it. -/
theorem constantValue_of_literal {name : String} {index : Nat} {decl : ConstDecl} {value result : Value}
    {fixed : Option ValueType} (found : flat.findConst scope name = some (index, decl))
    (made : flat.evaluator other scope = .ok evaluator)
    (literal : decl.value = result.toExpr evaluator.defaultWidth) (formed : result.WellFormed)
    (typed : flat.FixedType other reading scope index evaluator decl.type fixed)
    (converted : value.convert? fixed = some result) :
    flat.ConstantValue other reading scope name (result.relit evaluator.defaultWidth) := by
  apply ConstantValue.intro found made _ typed (Value.convert?_relit converted)
  rw [literal]
  exact exprValue_of_spells (Value.toExpr_spells formed)

end Program

namespace SourceUnit.Succeeds

variable {unit : SourceUnit} {settings : Settings} {result : InstantiatedUnit} {registry other : Registry}
  {reading : Reading} {package : SpecializedPackage} {name : String}

/-- A constant of an instance has a value, and in the flattened unit it has the value of the literal. -/
theorem constantValue_emitted (succeeds : unit.Succeeds settings result) (member : package ∈ result.packages) :
    Option.Rel (fun _ _ => ∃ value, (Program.ofUnit unit settings).ConstantValue result.registry .value
          (.instantiated package.target) name value ∧
        (result.flattened settings).ConstantValue other reading (.package package.name) name
          (value.relit (Program.ofUnit unit settings).emptyEvaluator.defaultWidth))
      ((Program.ofUnit unit settings).findConst (.instantiated package.target) name)
      ((result.flattened settings).findConst (.package package.name) name) := by
  obtain ⟨emitted, there, target, plain⟩ := plain?_name settings member
  obtain ⟨source, evaluator, generic, made, related⟩ :=
    (succeeds.completed emitted there _ (.refl _)).findConst_rel name
  rw [target] at generic made related
  have sourceConst : (Program.ofUnit unit settings).findConst (.instantiated package.target) name
      = source.findConst name := by
    simp only [Program.findConst, generic, Option.bind_eq_bind, Option.bind_some]
  have flatConst : (result.flattened settings).findConst (.package package.name) name
      = emitted.toPackage.findConst name := by
    simp only [Program.findConst, plain, Option.bind_eq_bind, Option.bind_some]
  rw [sourceConst, flatConst]
  generalize found : source.findConst name = constant at related ⊢
  generalize found' : emitted.toPackage.findConst name = constant' at related ⊢
  cases related with
  | none => exact .none
  | some related =>
    rename_i entry entry'
    obtain ⟨index, decl⟩ := entry
    obtain ⟨index', decl'⟩ := entry'
    simp only at related
    obtain ⟨rfl, value, type, denotes, rewrites, rfl⟩ := related
    have denotes : (Program.ofUnit unit settings).ConstantValue result.registry .value
        (.instantiated package.target) name value := (mem_of_findConst found).2 ▸ denotes
    refine .some ⟨value, denotes, ?_⟩
    have formed := denotes.wellFormed succeeds.formed
    have width := Program.defaultWidth_evaluator made
    cases denotes with
    | intro found'' made' evaluated typed converted =>
      rw [sourceConst, found] at found''
      cases found''
      rw [made] at made'
      cases made'
      exact Program.constantValue_of_literal (flatConst.trans found') rfl
        (congrArg value.toExpr width) formed (.of_folded rfl rewrites typed) converted

theorem constantValue_emitted_iff (succeeds : unit.Succeeds settings result)
    (grows : result.registry.Extends registry) (member : package ∈ result.packages) {found : Value} :
    (result.flattened settings).ConstantValue other reading (.package package.name) name found ↔
      ∃ value, (Program.ofUnit unit settings).ConstantValue registry .value
          (.instantiated package.target) name value ∧
        found = value.relit (Program.ofUnit unit settings).emptyEvaluator.defaultWidth := by
  have related := @constantValue_emitted _ _ _ other reading _ name succeeds member
  constructor
  · intro flat
    obtain ⟨entry, declared⟩ := Option.isSome_iff_exists.mp flat.isSome_findConst
    rw [declared] at related
    obtain ⟨_, _, value, denotes, literal⟩ := exists_left_of_rel related
    exact ⟨value, denotes.mono grows, flat.unique literal⟩
  · rintro ⟨value, source, rfl⟩
    obtain ⟨entry, declared⟩ := Option.isSome_iff_exists.mp source.isSome_findConst
    rw [declared] at related
    obtain ⟨_, _, other, denotes, literal⟩ := exists_right_of_rel related
    rw [source.unique (denotes.mono grows)]
    exact literal

end SourceUnit.Succeeds
end Monomorph
