import Monomorph.Proofs.Constant.Spelling
import Monomorph.Proofs.Denotation.Resolver

/-! One instance for argument sets that compare equal.

Sets that differ only in whether widths are written share an instance. Constants have
equal values under them, unless a negation or a conversion looks at the spelling.
-/

set_option autoImplicit false

namespace Monomorph

def Value.Alike (first second : Value) : Prop := first.Same second ∧ first.WellFormed

theorem Value.wellFormed_of_alike {values values' : List Value} (all : List.Forall₂ Value.Alike values values') :
    ∀ value ∈ values, value.WellFormed := by
  induction all with
  | nil =>
    intro value member
    cases member
  | cons here _ ih => exact List.forall_mem_cons.mpr ⟨here.2, ih⟩

namespace Agree

variable {ε δ α β γ ζ : Type} {related : α → β → Prop} {other : γ → ζ → Prop}

theorem run_bind {first : ExceptT ε Id α} {second : ExceptT δ Id β} {next : α → ExceptT ε Id γ}
    {next' : β → ExceptT δ Id ζ} (agree : Agree related first.run second.run)
    (continues : ∀ a b, first.run = .ok a → second.run = .ok b → related a b →
      Agree other (next a).run (next' b).run) :
    Agree other (first >>= next).run (second >>= next').run := by
  show Agree other (ExceptT.bindCont next first.run) (ExceptT.bindCont next' second.run)
  generalize first.run = result at agree continues ⊢
  generalize second.run = result' at agree continues ⊢
  cases agree with
  | ok here => exact continues _ _ rfl rfl here
  | error => exact .error

theorem lift {resolver : Resolver ε Id} {resolver' : Resolver δ Id} {first : Except EvalError α}
    {second : Except EvalError β} (agree : Agree related first second) :
    Agree related (resolver.lift first).run (resolver'.lift second).run := by
  cases agree with
  | ok here => exact .ok here
  | error => exact .error

end Agree

namespace Bindings

def Alike (first second : Bindings) : Prop :=
  List.Forall₂ (fun pair pair' => pair.1 = pair'.1 ∧ pair.2.Alike pair'.2) first second

variable {first second : Bindings}

theorem Alike.get? (alike : first.Alike second) (name : String) :
    Option.Rel Value.Alike (first.get? name) (second.get? name) := by
  induction alike with
  | nil => exact .none
  | @cons pair pair' _ _ here _ ih =>
    obtain ⟨bound, value⟩ := pair
    obtain ⟨bound', value'⟩ := pair'
    obtain ⟨rfl, same⟩ := here
    unfold Bindings.get? at ih ⊢
    rw [List.lookup_cons, List.lookup_cons]
    cases name == bound with
    | true => exact .some same
    | false => exact ih

theorem Alike.erase (alike : first.Alike second) (name : String) :
    (first.erase name).Alike (second.erase name) := by
  induction alike with
  | nil => exact .nil
  | cons here _ ih =>
    unfold Bindings.erase at ih ⊢
    rw [List.filter_cons, List.filter_cons, here.1]
    split
    · exact .cons here ih
    · exact ih

theorem Alike.insert (alike : first.Alike second) {name : String} {value value' : Value}
    (same : value.Alike value') : (first.insert name value).Alike (second.insert name value') :=
  .cons ⟨rfl, same⟩ (alike.erase name)

theorem Alike.insertAll (alike : first.Alike second) {pairs pairs' : List (String × Value)}
    (same : Alike pairs pairs') : (first.insertAll pairs).Alike (second.insertAll pairs') := by
  induction same generalizing first second with
  | nil => exact alike
  | @cons pair pair' _ _ here _ ih =>
    obtain ⟨bound, value⟩ := pair
    obtain ⟨bound', value'⟩ := pair'
    obtain ⟨rfl, same⟩ := here
    exact ih (alike.insert same)

theorem alike_zip (names : List String) {first second : Arguments} (same : first.same second = true)
    (formed : first.WellFormed) : Alike (names.zip first) (names.zip second) := by
  induction names generalizing first second with
  | nil => exact .nil
  | cons name names ih =>
    cases first with
    | nil =>
      cases second with
      | nil => exact .nil
      | cons value values => cases same
    | cons value values =>
      cases second with
      | nil => cases same
      | cons value' values' =>
        simp only [Arguments.same, Bool.and_eq_true] at same
        exact .cons ⟨rfl, same.1, formed value List.mem_cons_self⟩
          (ih same.2 fun value member => formed value (List.mem_cons_of_mem _ member))

end Bindings

structure Evaluator.Alike (first second : Evaluator) : Prop where
  bindings : first.bindings.Alike second.bindings
  defaultWidth : second.defaultWidth = first.defaultWidth

/-- Other names get equal values, or none, from both resolvers. -/
structure Resolver.Alike {ε : Type} (first second : Resolver ε Id) : Prop where
  ident : ∀ name, Agree Value.Alike (first.ident name).run (second.ident name).run
  reference : ∀ target, Agree Value.Alike (first.reference target).run (second.reference target).run

section Evaluation

variable {ε : Type} (first second : Evaluator) (resolver resolver' : Resolver ε Id)

def negatedApart : Except ε Value → Except ε Value → Bool
  | .ok value, .ok value' => value.negatesApart value'
  | _, _ => false

def convertedApart : Except ε Value → Except ε Value → Except ε (Option ValueType) → Bool
  | .ok value, .ok value', .ok (some expected) => Value.convertsApart expected value value'
  | _, _, _ => false

mutual

/-- Whether evaluation reaches a negation that takes equal operands to different results. -/
def Expr.negatesApart : Expr → Bool
  | .literal _ | .ident _ | .reference .. | .field .. => false
  | .binary _ left right =>
    left.negatesApart || ((first.eval resolver left).run.isOk && right.negatesApart)
  | .unary op operand =>
    operand.negatesApart || (op == .neg &&
      negatedApart (first.eval resolver operand).run (second.eval resolver' operand).run)
  | .call function arguments => (Builtin.find? function).isSome && Expr.listNegatesApart arguments
  | .ternary condition whenTrue whenFalse =>
    condition.negatesApart ||
      match (first.eval resolver condition).run with
      | .ok test => if test.isTruthy then whenTrue.negatesApart else whenFalse.negatesApart
      | .error _ => false

def Expr.listNegatesApart : List Expr → Bool
  | [] => false
  | head :: tail =>
    head.negatesApart || ((first.eval resolver head).run.isOk && Expr.listNegatesApart tail)

end

variable {first second resolver resolver'}

theorem Evaluator.Alike.literal (evaluators : first.Alike second) (literal : Literal) :
    Agree Value.Alike (first.literal literal) (second.literal literal) := by
  have same : second.literal literal = first.literal literal := by
    cases literal with
    | bool value => rfl
    | int value width signed =>
      cases width with
      | none => simp only [Evaluator.literal, evaluators.defaultWidth]
      | some width => rfl
  rw [same]
  exact (Agree.refl Value.same_refl _).imp fun value _ found equal =>
    ⟨equal, Evaluator.wellFormed_literal found⟩

mutual

/-- Short of such a negation, evaluation takes equal values to equal results. -/
theorem Evaluator.Alike.eval (evaluators : first.Alike second) (resolvers : resolver.Alike resolver') :
    ∀ expr : Expr, expr.negatesApart first second resolver resolver' = false →
      Agree Value.Alike (first.eval resolver expr).run (second.eval resolver' expr).run
  | .literal value, _ => by
    rw [Evaluator.eval, Evaluator.eval]
    exact (evaluators.literal value).lift
  | .ident name, _ => by
    have bound := evaluators.bindings.get? name
    rw [Evaluator.eval, Evaluator.eval]
    generalize first.bindings.get? name = value at bound ⊢
    generalize second.bindings.get? name = value' at bound ⊢
    cases bound with
    | none => exact resolvers.ident name
    | some same => exact .ok same
  | .reference .., _ => by
    rw [Evaluator.eval, Evaluator.eval]
    exact resolvers.reference _
  | .binary op left right, together => by
    rw [Expr.negatesApart, Bool.or_eq_false_iff] at together
    rw [Evaluator.eval, Evaluator.eval]
    apply Agree.run_bind (evaluators.eval resolvers left together.1)
    intro a a' found _ one
    -- the right operand is evaluated only after the left one has a value
    have onward : right.negatesApart first second resolver resolver' = false := by
      simpa [found, Except.isOk, Except.toBool] using together.2
    apply Agree.run_bind (evaluators.eval resolvers right onward)
    intro b b' _ _ two
    apply Agree.lift
    exact (Value.binary_same op one.1 two.1).imp fun value _ found same =>
      ⟨same, Value.wellFormed_binary one.2 two.2 found⟩
  | .unary op operand, together => by
    rw [Expr.negatesApart, Bool.or_eq_false_iff] at together
    rw [Evaluator.eval, Evaluator.eval]
    apply Agree.run_bind (evaluators.eval resolvers operand together.1)
    intro a a' found found' one
    have negated : op = .neg → a.negatesApart a' = false := by
      rintro rfl
      simpa [found, found', negatedApart] using together.2
    apply Agree.lift
    exact (Value.unary_same op one.1 negated).imp fun value _ found same =>
      ⟨same, Value.wellFormed_unary one.2 found⟩
  | .call function arguments, together => by
    rw [Expr.negatesApart] at together
    rw [Evaluator.eval, Evaluator.eval]
    cases known : Builtin.find? function with
    | none => exact .error
    | some builtin =>
      rw [known, Option.isSome_some, Bool.true_and] at together
      apply Agree.run_bind (evaluators.evalList resolvers arguments together)
      intro values values' _ _ all
      apply Agree.lift
      rw [evaluators.defaultWidth]
      exact (builtin.apply_same _ (all.imp fun _ _ alike => alike.1)).imp fun value _ found same =>
        ⟨same, Builtin.wellFormed_apply (Value.wellFormed_of_alike all) found⟩
  | .ternary condition whenTrue whenFalse, together => by
    rw [Expr.negatesApart, Bool.or_eq_false_iff] at together
    rw [Evaluator.eval, Evaluator.eval]
    apply Agree.run_bind (evaluators.eval resolvers condition together.1)
    intro test test' found _ same
    have chosen := together.2
    rw [found] at chosen
    simp only at chosen
    rw [Value.isTruthy_same same.1]
    cases truth : test.isTruthy with
    | true =>
      rw [truth, if_pos rfl] at chosen
      exact evaluators.eval resolvers whenTrue chosen
    | false =>
      rw [truth] at chosen
      exact evaluators.eval resolvers whenFalse chosen
  | .field base name, _ => by
    rw [Evaluator.eval, Evaluator.eval]
    exact .error
termination_by structural expr => expr

theorem Evaluator.Alike.evalList (evaluators : first.Alike second) (resolvers : resolver.Alike resolver') :
    ∀ exprs : List Expr, Expr.listNegatesApart first second resolver resolver' exprs = false →
      Agree (List.Forall₂ Value.Alike) (first.evalList resolver exprs).run (second.evalList resolver' exprs).run
  | [], _ => .ok .nil
  | head :: tail, together => by
    rw [Expr.listNegatesApart, Bool.or_eq_false_iff] at together
    rw [Evaluator.evalList, Evaluator.evalList]
    apply Agree.run_bind (evaluators.eval resolvers head together.1)
    intro a a' found _ one
    have onward : Expr.listNegatesApart first second resolver resolver' tail = false := by
      simpa [found, Except.isOk, Except.toBool] using together.2
    apply Agree.run_bind (evaluators.evalList resolvers tail onward)
    intro values values' _ _ rest
    exact .ok (.cons one rest)
termination_by structural exprs => exprs

end

theorem Evaluator.Alike.evalSize (evaluators : first.Alike second) (resolvers : resolver.Alike resolver')
    {expr : Expr} (together : expr.negatesApart first second resolver resolver' = false) :
    Agree Eq (first.evalSize resolver expr).run (second.evalSize resolver' expr).run := by
  unfold Evaluator.evalSize
  apply Agree.run_bind (evaluators.eval resolvers expr together)
  intro value value' _ _ alike
  rw [Value.toCount?_same alike.1]
  split
  · exact .ok rfl
  · exact .error

variable (first second resolver resolver') in
def TypeExpr.negatesApart : TypeExpr → Bool
  | .logic (some width) | .bit (some width) => width.negatesApart first second resolver resolver'
  | _ => false

theorem Evaluator.Alike.valueType (evaluators : first.Alike second) (resolvers : resolver.Alike resolver')
    {type : TypeExpr} (together : type.negatesApart first second resolver resolver' = false) :
    Agree Eq (type.valueType first resolver).run (type.valueType second resolver').run := by
  have vector {width : Expr} (together : width.negatesApart first second resolver resolver' = false) :
      Agree Eq ((first.evalSize resolver width >>= fun size => some <$> resolver.lift (ValueType.vector size)).run)
        ((second.evalSize resolver' width >>= fun size => some <$> resolver'.lift (ValueType.vector size)).run) := by
    apply Agree.run_bind (evaluators.evalSize resolvers together)
    rintro size _ _ _ rfl
    cases ValueType.vector size with
    | ok fixed => exact .ok rfl
    | error error => exact .error
  cases type with
  | logic width =>
    cases width with
    | none => exact .ok rfl
    | some width => exact vector together
  | bit width =>
    cases width with
    | none => exact .ok rfl
    | some width => exact vector together
  | int kind => exact .ok rfl
  | bool => exact .ok rfl
  | named name => exact .ok rfl
  | reference target => exact .ok rfl
  | array element length => exact .ok rfl

end Evaluation

namespace ConstDecl

def convert {m : Type → Type} [Monad m] (decl : ConstDecl) (evaluator : Evaluator) (resolver : Resolver Stop m)
    (value : Value) : ExceptT Fault m Value :=
  match decl.type with
  | none => pure value
  | some type => do
    let expected ← (type.valueType evaluator resolver).adapt
      (Stop.toFault ("type of constant '" ++ decl.name ++ "'") decl.span)
    match expected with
    | none => pure value
    | some expected => ExceptT.mk (pure (value.coerce expected ("constant '" ++ decl.name ++ "'") decl.span))

def evaluate {m : Type → Type} [Monad m] (decl : ConstDecl) (evaluator : Evaluator) (resolver : Resolver Stop m) :
    ExceptT Fault m Value := do
  let value ← (evaluator.eval resolver decl.value).adapt
    (Stop.toFault ("constant '" ++ decl.name ++ "'") decl.span)
  decl.convert evaluator resolver value

theorem valueOf_eq_evaluate (program : Program) (lookup : Lookup) (scope : Scope) (position : Nat)
    (decl : ConstDecl) :
    program.valueOf lookup scope position decl = program.evaluatorFor scope >>= fun evaluator =>
      decl.evaluate evaluator (program.resolver lookup scope position decl.span) := rfl

section

variable (first second : Evaluator) (resolver resolver' : Resolver Stop Id)

def negatesApart (decl : ConstDecl) : Bool :=
  decl.value.negatesApart first second resolver resolver' ||
    ((first.eval resolver decl.value).run.isOk &&
      decl.type.any (·.negatesApart first second resolver resolver'))

def convertsApart (decl : ConstDecl) : Bool :=
  decl.type.any fun type => convertedApart (first.eval resolver decl.value).run
    (second.eval resolver' decl.value).run (type.valueType first resolver).run

end

variable {first second : Evaluator} {resolver resolver' : Resolver Stop Id}

theorem convert_agree_iff (evaluators : first.Alike second) (resolvers : resolver.Alike resolver')
    {decl : ConstDecl} {value value' : Value} (alike : value.Alike value')
    (together : decl.type.any (·.negatesApart first second resolver resolver') = false) :
    Agree Value.Same (decl.convert first resolver value).run (decl.convert second resolver' value').run ↔
      (decl.type.any fun type =>
        convertedApart (.ok value) (.ok value') (type.valueType first resolver).run) = false := by
  unfold convert
  cases declared : decl.type with
  | none => exact iff_of_true (.ok alike.1) rfl
  | some type =>
    rw [declared] at together
    -- both types are the same, so the values alone decide
    have types := evaluators.valueType resolvers together
    simp only [Option.any_some]
    cases typed : (type.valueType first resolver).run with
    | error error =>
      cases typed' : (type.valueType second resolver').run with
      | ok fixed =>
        rw [typed, typed'] at types
        cases types
      | error error' =>
        rw [ExceptT.run_bind_of_error (ExceptT.run_adapt_of_error typed _),
          ExceptT.run_bind_of_error (ExceptT.run_adapt_of_error typed' _)]
        exact iff_of_true .error rfl
    | ok fixed =>
      have typed' : (type.valueType second resolver').run = .ok fixed := by
        rw [typed] at types
        generalize (type.valueType second resolver').run = result at types ⊢
        cases types with
        | ok same => rw [same]
      rw [ExceptT.run_bind_of_ok (ExceptT.run_adapt_eq_ok.mpr typed),
        ExceptT.run_bind_of_ok (ExceptT.run_adapt_eq_ok.mpr typed')]
      cases fixed with
      | none => exact iff_of_true (.ok alike.1) rfl
      | some expected => exact Value.coerce_agree_iff alike.1 alike.2

/-- Without such a negation, a declaration has equal values under equal bindings, or none, just when
its conversion looks at no spelling. -/
theorem evaluate_agree_iff (evaluators : first.Alike second) (resolvers : resolver.Alike resolver')
    (decl : ConstDecl) (together : decl.negatesApart first second resolver resolver' = false) :
    Agree Value.Same (decl.evaluate first resolver).run (decl.evaluate second resolver').run ↔
      decl.convertsApart first second resolver resolver' = false := by
  rw [negatesApart, Bool.or_eq_false_iff] at together
  have values := evaluators.eval resolvers decl.value together.1
  unfold evaluate convertsApart
  cases found : (first.eval resolver decl.value).run with
  | error error =>
    cases found' : (second.eval resolver' decl.value).run with
    | ok value =>
      rw [found, found'] at values
      cases values
    | error error' =>
      rw [ExceptT.run_bind_of_error (ExceptT.run_adapt_of_error found _),
        ExceptT.run_bind_of_error (ExceptT.run_adapt_of_error found' _)]
      exact iff_of_true .error (by cases decl.type <;> rfl)
  | ok value =>
    cases found' : (second.eval resolver' decl.value).run with
    | error error =>
      rw [found, found'] at values
      cases values
    | ok value' =>
      rw [found, found'] at values
      rw [ExceptT.run_bind_of_ok (ExceptT.run_adapt_eq_ok.mpr found),
        ExceptT.run_bind_of_ok (ExceptT.run_adapt_eq_ok.mpr found')]
      cases values with
      | ok alike =>
        apply convert_agree_iff evaluators resolvers alike
        simpa [found, Except.isOk, Except.toBool] using together.2

end ConstDecl

namespace Package

def evaluator (package : Package) (defaultWidth : Nat) (arguments : Arguments) : Evaluator :=
  (Evaluator.ofWidth defaultWidth).bindAll ((package.parameters.map (·.name)).zip arguments)

theorem evaluator_instantiated {program : Program} {registry : Registry} {target : Instance} {package : Package}
    {arguments : Arguments} (generic : program.generic? target.base = some package)
    (stored : registry.resolve target = .ok arguments) :
    program.evaluator registry (.instantiated target)
      = .ok (package.evaluator program.settings.defaultIntegerWidth arguments) := by
  simp only [Program.evaluator, stored, generic]
  rfl

/-- The pass evaluates the constants of an instance with its evaluator. -/
theorem valueOf_instantiated {program : Program} {lookup : Lookup} {state : State} {target : Instance}
    {package : Package} {arguments : Arguments} (generic : program.generic? target.base = some package)
    (stored : state.registry.get? target = some arguments) (position : Nat) (decl : ConstDecl) :
    (program.valueOf lookup (.instantiated target) position decl).run state
      = (decl.evaluate (package.evaluator program.settings.defaultIntegerWidth arguments)
          (program.resolver lookup (.instantiated target) position decl.span)).run state := by
  have made := evaluator_instantiated generic (Registry.resolve_eq_ok.mpr stored)
  rw [ConstDecl.valueOf_eq_evaluate]
  show (ExceptT.bindCont _ (program.evaluator state.registry (.instantiated target)) : Machine _) state = _
  rw [made]
  rfl

variable {package : Package} {defaultWidth : Nat} {first second : Arguments}

theorem alike_evaluator (same : first.same second = true) (formed : first.WellFormed) :
    (package.evaluator defaultWidth first).Alike (package.evaluator defaultWidth second) where
  bindings := Bindings.Alike.insertAll .nil (Bindings.alike_zip _ same formed)
  defaultWidth := rfl

end Package
end Monomorph
