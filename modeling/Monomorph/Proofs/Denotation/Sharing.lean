import Monomorph.Proofs.Dependency.Uses
import Monomorph.Proofs.Instance.Deduplication

/-! Constants that have values in two registries over the same packages.

An instance is known by its base and its argument set, and sets are compared without
their spelling. The numbers of instances, the spellings that are kept and the modules may
therefore differ between the registries. A constant has equal values in instances for
equal sets, unless its evaluations come to a negation that takes equal operands to
different results. Conversions do not set values apart: where one looks at the spelling,
only one of the values exists.
-/

set_option autoImplicit false

namespace Monomorph

theorem Value.Alike.convert? {first second result result' : Value} {fixed : Option ValueType}
    (alike : first.Alike second) (found : first.convert? fixed = some result)
    (found' : second.convert? fixed = some result') : result.Alike result' := by
  refine ⟨?_, Value.wellFormed_convert? alike.2 found⟩
  cases fixed with
  | none =>
    cases found
    cases found'
    exact alike.1
  | some expected => exact Value.same_of_coerce? alike.1 alike.2 found found'

theorem Resolver.closed_alike : Resolver.closed.Alike Resolver.closed := ⟨fun _ => .error, fun _ => .error⟩

theorem Evaluator.Alike.ofWidth (width : Nat) : (Evaluator.ofWidth width).Alike (.ofWidth width) := ⟨.nil, rfl⟩

/-- Whether the type of a parameter negates earlier parameters apart. -/
def GenericParameter.negatesApart (parameter : GenericParameter) (earlier earlier' : Evaluator) : Bool :=
  match parameter.type with
  | .const => false
  | .typed type => type.negatesApart earlier earlier' Resolver.closed Resolver.closed

/-- Among the parameters that are bound to arguments one after the other, one has such a type. -/
inductive AcceptsApart : Evaluator → Evaluator → List GenericParameter → List Value → List Value → Prop where
  | here {earlier earlier' : Evaluator} {parameter : GenericParameter} {parameters : List GenericParameter}
      {values values' : List Value} :
      parameter.negatesApart earlier earlier' = true →
      AcceptsApart earlier earlier' (parameter :: parameters) values values'
  | later {earlier earlier' : Evaluator} {parameter : GenericParameter} {parameters : List GenericParameter}
      {value value' bound bound' : Value} {values values' : List Value} :
      parameter.accept? earlier value = some bound → parameter.accept? earlier' value' = some bound' →
      AcceptsApart (earlier.bind parameter.name bound) (earlier'.bind parameter.name bound') parameters
        values values' →
      AcceptsApart earlier earlier' (parameter :: parameters) (value :: values) (value' :: values')

section Binding

variable {earlier earlier' : Evaluator} (evaluators : earlier.Alike earlier')

include evaluators

theorem GenericParameter.alike_accept? {parameter : GenericParameter} {value value' bound bound' : Value}
    (alike : value.Alike value') (together : ¬parameter.negatesApart earlier earlier' = true)
    (found : parameter.accept? earlier value = some bound)
    (found' : parameter.accept? earlier' value' = some bound') : bound.Alike bound' := by
  unfold accept? at found found'
  unfold negatesApart at together
  split at found
  · rename_i free
    simp only [free] at found'
    cases found
    cases found'
    exact alike
  · rename_i type typed
    simp only [typed] at found' together
    -- both widths are the same, so both arguments are converted to one type
    have types := evaluators.valueType Resolver.closed_alike (Bool.eq_false_iff.mpr together)
    generalize (type.valueType earlier Resolver.closed).run = fixed at found types
    generalize (type.valueType earlier' Resolver.closed).run = fixed' at found' types
    cases types with
    | error => cases found
    | ok same =>
      cases same
      exact alike.convert? found found'

theorem alike_acceptFrom {parameters : List GenericParameter} {values values' : List Value}
    {bound bound' : Arguments} (alike : List.Forall₂ Value.Alike values values')
    (together : ¬AcceptsApart earlier earlier' parameters values values')
    (found : acceptFrom earlier parameters values = some bound)
    (found' : acceptFrom earlier' parameters values' = some bound') : List.Forall₂ Value.Alike bound bound' := by
  induction parameters generalizing earlier earlier' values values' bound bound' with
  | nil =>
    cases alike with
    | nil =>
      cases found
      cases found'
      exact .nil
    | cons here rest => cases found
  | cons parameter parameters ih =>
    cases alike with
    | nil => cases found
    | cons here rest =>
      obtain ⟨value, accepted, found⟩ := Option.bind_eq_some_iff.mp found
      obtain ⟨others, continued, found⟩ := Option.bind_eq_some_iff.mp found
      obtain ⟨value', accepted', found'⟩ := Option.bind_eq_some_iff.mp found'
      obtain ⟨others', continued', found'⟩ := Option.bind_eq_some_iff.mp found'
      cases found
      cases found'
      have first := GenericParameter.alike_accept? evaluators here (together <| .here ·) accepted accepted'
      have bound : (earlier.bind parameter.name value).Alike (earlier'.bind parameter.name value') :=
        ⟨evaluators.bindings.insert first, evaluators.defaultWidth⟩
      exact .cons first (ih bound rest (together <| .later accepted accepted' ·) continued continued')

end Binding

theorem Arguments.same_of_alike {first second : Arguments} (alike : List.Forall₂ Value.Alike first second) :
    first.same second = true := by
  induction alike with
  | nil => rfl
  | cons here _ ih => exact Bool.and_eq_true_iff.mpr ⟨here.1, ih⟩

/-- What names denote is read from a program and a registry. -/
structure Ground where
  program : Program
  registry : Registry

namespace Ground

structure Shares (one two : Ground) : Prop where
  package : ∀ name, two.program.package? name = one.program.package? name
  width : two.program.settings.defaultIntegerWidth = one.program.settings.defaultIntegerWidth
  formed : one.registry.WellFormed

/-- The same plain package, or instances of one base for equal argument sets. -/
inductive Matches (one two : Ground) : Scope → Scope → Prop where
  | instantiated {target target' : Instance} {arguments arguments' : Arguments} :
      target.base = target'.base →
      one.registry.get? target = some arguments → two.registry.get? target' = some arguments' →
      arguments.same arguments' = true →
      Matches one two (.instantiated target) (.instantiated target')
  | package {name : String} : Matches one two (.package name) (.package name)

mutual

/-- The evaluations of a constant in two scopes come to a negation that takes equal operands apart. -/
inductive ConstantApart (one two : Ground) : Reading → Scope → Scope → String → Prop where
  | value {reading : Reading} {scope scope' : Scope} {name : String} {index : Nat} {decl : ConstDecl}
      {evaluator evaluator' : Evaluator} :
      one.program.findConst scope name = some (index, decl) →
      one.program.evaluator one.registry scope = .ok evaluator →
      two.program.evaluator two.registry scope' = .ok evaluator' →
      ExprApart one two reading scope scope' index evaluator evaluator' decl.value →
      ConstantApart one two reading scope scope' name
  | type {reading : Reading} {scope scope' : Scope} {name : String} {index : Nat} {decl : ConstDecl}
      {evaluator evaluator' : Evaluator} {width : Expr} :
      one.program.findConst scope name = some (index, decl) →
      one.program.evaluator one.registry scope = .ok evaluator →
      two.program.evaluator two.registry scope' = .ok evaluator' →
      decl.type.bind TypeExpr.width? = some width →
      ExprApart one two reading scope scope' index evaluator evaluator' width →
      ConstantApart one two reading scope scope' name

inductive ExprApart (one two : Ground) :
    Reading → Scope → Scope → Nat → Evaluator → Evaluator → Expr → Prop where
  | negation {reading : Reading} {scope scope' : Scope} {position : Nat} {evaluator evaluator' : Evaluator}
      {operand : Expr} {value value' : Value} :
      one.program.ExprValue one.registry reading scope position evaluator operand value →
      two.program.ExprValue two.registry reading scope' position evaluator' operand value' →
      value.Same value' → value.negatesApart value' = true →
      ExprApart one two reading scope scope' position evaluator evaluator' (.unary .neg operand)
  | operand {reading : Reading} {scope scope' : Scope} {position : Nat} {evaluator evaluator' : Evaluator}
      {op : UnaryOp} {operand : Expr} :
      ExprApart one two reading scope scope' position evaluator evaluator' operand →
      ExprApart one two reading scope scope' position evaluator evaluator' (.unary op operand)
  | left {reading : Reading} {scope scope' : Scope} {position : Nat} {evaluator evaluator' : Evaluator}
      {op : BinaryOp} {left right : Expr} :
      ExprApart one two reading scope scope' position evaluator evaluator' left →
      ExprApart one two reading scope scope' position evaluator evaluator' (.binary op left right)
  | right {reading : Reading} {scope scope' : Scope} {position : Nat} {evaluator evaluator' : Evaluator}
      {op : BinaryOp} {left right : Expr} :
      ExprApart one two reading scope scope' position evaluator evaluator' right →
      ExprApart one two reading scope scope' position evaluator evaluator' (.binary op left right)
  | call {reading : Reading} {scope scope' : Scope} {position : Nat} {evaluator evaluator' : Evaluator}
      {function : String} {arguments : List Expr} {argument : Expr} :
      argument ∈ arguments →
      ExprApart one two reading scope scope' position evaluator evaluator' argument →
      ExprApart one two reading scope scope' position evaluator evaluator' (.call function arguments)
  | condition {reading : Reading} {scope scope' : Scope} {position : Nat} {evaluator evaluator' : Evaluator}
      {condition whenTrue whenFalse : Expr} :
      ExprApart one two reading scope scope' position evaluator evaluator' condition →
      ExprApart one two reading scope scope' position evaluator evaluator'
        (.ternary condition whenTrue whenFalse)
  | chosen {reading : Reading} {scope scope' : Scope} {position : Nat} {evaluator evaluator' : Evaluator}
      {condition whenTrue whenFalse : Expr} {test : Value} :
      one.program.ExprValue one.registry reading scope position evaluator condition test →
      ExprApart one two reading scope scope' position evaluator evaluator'
        (if test.isTruthy then whenTrue else whenFalse) →
      ExprApart one two reading scope scope' position evaluator evaluator'
        (.ternary condition whenTrue whenFalse)
  | constant {reading : Reading} {scope scope' : Scope} {position : Nat} {evaluator evaluator' : Evaluator}
      {name : String} :
      evaluator.bindings.get? name = none →
      ConstantApart one two reading scope scope' name →
      ExprApart one two reading scope scope' position evaluator evaluator' (.ident name)
  | reference {reading : Reading} {scope scope' : Scope} {position : Nat} {evaluator evaluator' : Evaluator}
      {package : String} {arguments : List Expr} {members : List String} {span : Span} :
      ReferenceApart one two reading scope scope' position ⟨package, arguments, members, span⟩ →
      ExprApart one two reading scope scope' position evaluator evaluator'
        (.reference package arguments members span)

/-- In the arguments of a reference, in the types of the parameters that they are bound to, or in the
constant that it names. -/
inductive ReferenceApart (one two : Ground) : Reading → Scope → Scope → Nat → Reference → Prop where
  | argument {reading : Reading} {scope scope' : Scope} {position : Nat} {reference : Reference}
      {evaluator evaluator' : Evaluator} {argument : Expr} :
      one.program.evaluator one.registry scope = .ok evaluator →
      two.program.evaluator two.registry scope' = .ok evaluator' →
      argument ∈ reference.arguments →
      ExprApart one two .value scope scope' position evaluator evaluator' argument →
      ReferenceApart one two reading scope scope' position reference
  | parameter {reading : Reading} {scope scope' : Scope} {position : Nat} {reference : Reference}
      {package : Package} {evaluator evaluator' : Evaluator} {values values' : List Value} :
      one.program.generic? reference.package = some package →
      one.program.evaluator one.registry scope = .ok evaluator →
      two.program.evaluator two.registry scope' = .ok evaluator' →
      one.program.ExprValues one.registry .value scope position evaluator reference.arguments values →
      two.program.ExprValues two.registry .value scope' position evaluator' reference.arguments values' →
      AcceptsApart (.ofWidth evaluator.defaultWidth) (.ofWidth evaluator'.defaultWidth) package.parameters
        values values' →
      ReferenceApart one two reading scope scope' position reference
  | instantiated {reading : Reading} {scope scope' : Scope} {position : Nat} {reference : Reference}
      {package : Package} {arguments arguments' : Arguments} {id id' : InstanceId} {member : String} :
      one.program.generic? reference.package = some package →
      one.program.Binds one.registry scope position package reference.arguments arguments →
      two.program.Binds two.registry scope' position package reference.arguments arguments' →
      one.registry.find? package.name arguments = some id →
      two.registry.find? package.name arguments' = some id' →
      reference.members = [member] →
      ConstantApart one two .value (.instantiated ⟨package.name, id⟩) (.instantiated ⟨package.name, id'⟩)
        member →
      ReferenceApart one two reading scope scope' position reference
  | plain {reading : Reading} {scope scope' : Scope} {position : Nat} {reference : Reference}
      {package : Package} {member : String} :
      one.program.plain? reference.package = some package →
      reference.members = [member] →
      ConstantApart one two reading (.package package.name) (.package package.name) member →
      ReferenceApart one two reading scope scope' position reference

end

variable {one two : Ground}

section Lookup

variable (shares : one.Shares two)

include shares

theorem Shares.generic? (name : String) : two.program.generic? name = one.program.generic? name := by
  rw [Program.generic?, shares.package, Program.generic?]

theorem Shares.plain? (name : String) : two.program.plain? name = one.program.plain? name := by
  rw [Program.plain?, shares.package, Program.plain?]

theorem Shares.alike_emptyEvaluator : one.program.emptyEvaluator.Alike two.program.emptyEvaluator := by
  rw [Program.emptyEvaluator, Program.emptyEvaluator, shares.width]
  exact .ofWidth _

variable {scope scope' : Scope} (matched : one.Matches two scope scope')

include matched

theorem Shares.findConst (name : String) :
    two.program.findConst scope' name = one.program.findConst scope name := by
  cases matched with
  | instantiated same _ _ _ => simp only [Program.findConst, ← same, shares.generic?]
  | package => simp only [Program.findConst, shares.plain?]

theorem Shares.alike_evaluator {evaluator evaluator' : Evaluator}
    (made : one.program.evaluator one.registry scope = .ok evaluator)
    (made' : two.program.evaluator two.registry scope' = .ok evaluator') : evaluator.Alike evaluator' := by
  cases matched with
  | @instantiated target target' arguments arguments' base stored stored' same =>
    cases generic : one.program.generic? target.base with
    | none =>
      have generic' : two.program.generic? target'.base = none := by rw [← base, shares.generic?, generic]
      simp only [Program.evaluator, Registry.resolve_eq_ok.mpr stored, generic] at made
      simp only [Program.evaluator, Registry.resolve_eq_ok.mpr stored', generic'] at made'
      cases made
      cases made'
      exact shares.alike_emptyEvaluator
    | some package =>
      have generic' : two.program.generic? target'.base = some package := by
        rw [← base, shares.generic?, generic]
      rw [Package.evaluator_instantiated generic (Registry.resolve_eq_ok.mpr stored)] at made
      rw [Package.evaluator_instantiated generic' (Registry.resolve_eq_ok.mpr stored'), shares.width] at made'
      cases made
      cases made'
      exact Package.alike_evaluator same (shares.formed.get? stored)
  | package =>
    cases made
    cases made'
    exact shares.alike_emptyEvaluator

end Lookup

theorem Matches.of_find? {base : String} {arguments arguments' : Arguments} {id id' : InstanceId}
    (found : one.registry.find? base arguments = some id) (found' : two.registry.find? base arguments' = some id')
    (same : arguments.same arguments' = true) :
    one.Matches two (.instantiated ⟨base, id⟩) (.instantiated ⟨base, id'⟩) := by
  obtain ⟨stored, there, agrees⟩ := Registry.get?_of_find? found
  obtain ⟨stored', there', agrees'⟩ := Registry.get?_of_find? found'
  exact .instantiated rfl there there'
    (Arguments.same_trans agrees (Arguments.same_trans same (Arguments.same_symm agrees')))

end Ground

namespace Program

variable {one two : Ground}

-- The induction follows the derivation in the first ground. The one in the second ground has the same
-- shape, since declarations and tests are the same.
mutual

theorem ConstantValue.same (shares : one.Shares two) {reading : Reading} {scope scope' : Scope}
    (matched : one.Matches two scope scope') {name : String} {value value' : Value} :
    one.program.ConstantValue one.registry reading scope name value →
    two.program.ConstantValue two.registry reading scope' name value' →
    ¬one.ConstantApart two reading scope scope' name → value.Same value'
  | .intro found made value type converted, .intro found' made' value' type' converted', together => by
    rw [shares.findConst matched, found] at found'
    cases found'
    have evaluators := shares.alike_evaluator matched made made'
    have formed := wellFormed_evaluator shares.formed made
    have values := value.same shares matched evaluators formed value' (together <| .value found made made' ·)
    have types := type.same shares matched evaluators formed type'
      fun _ declared apart => together (.type found made made' declared apart)
    rw [← types] at converted'
    exact (Value.Alike.convert? ⟨values, value.wellFormed shares.formed formed⟩ converted converted').1
termination_by structural derivation => derivation

theorem ExprValue.same (shares : one.Shares two) {reading : Reading} {scope scope' : Scope}
    (matched : one.Matches two scope scope') {position : Nat} {evaluator evaluator' : Evaluator}
    (evaluators : evaluator.Alike evaluator') (formed : evaluator.WellFormed) {expr : Expr} {value value' : Value} :
    one.program.ExprValue one.registry reading scope position evaluator expr value →
    two.program.ExprValue two.registry reading scope' position evaluator' expr value' →
    ¬one.ExprApart two reading scope scope' position evaluator evaluator' expr → value.Same value'
  | .literal found, .literal found', _ => ((evaluators.literal _).of_ok found found').1
  | @ExprValue.parameter _ _ _ _ _ _ name _ bound, .parameter bound', _ => by
    have alike := evaluators.bindings.get? name
    rw [bound, bound'] at alike
    cases alike with
    | some alike => exact alike.1
  | @ExprValue.parameter _ _ _ _ _ _ name _ bound, .constant free _ _ _, _ => by
    have alike := evaluators.bindings.get? name
    rw [bound, free] at alike
    cases alike
  | @ExprValue.constant _ _ _ _ _ _ name _ _ _ free _ _ _, .parameter bound, _ => by
    have alike := evaluators.bindings.get? name
    rw [free, bound] at alike
    cases alike
  | .constant free _ _ value, .constant _ _ _ value', together =>
    value.same shares matched value' (together <| .constant free ·)
  | .reference value, .reference value', together => value.same shares matched value' (together <| .reference ·)
  | .binary left right value, .binary left' right' value', together => by
    have lefts := left.same shares matched evaluators formed left' (together <| .left ·)
    have rights := right.same shares matched evaluators formed right' (together <| .right ·)
    exact (Value.binary_same _ lefts rights).of_ok value value'
  | .unary operand value, .unary operand' value', together => by
    have same := operand.same shares matched evaluators formed operand' (together <| .operand ·)
    refine (Value.unary_same _ same ?_).of_ok value value'
    rintro rfl
    exact Bool.eq_false_iff.mpr (together <| .negation operand operand' same ·)
  | .call found values value, .call found' values' value', together => by
    cases found.symm.trans found'
    have all := values.same shares matched evaluators formed values'
      fun _ member apart => together (.call member apart)
    rw [evaluators.defaultWidth] at value'
    exact (Builtin.apply_same _ _ (all.imp fun _ _ alike => alike.1)).of_ok value value'
  | .ternary test value, .ternary test' value', together => by
    have same := test.same shares matched evaluators formed test' (together <| .condition ·)
    rw [Value.isTruthy_same same] at value'
    exact value.same shares matched evaluators formed value' (together <| .chosen test ·)
termination_by structural derivation => derivation

theorem ExprValues.same (shares : one.Shares two) {reading : Reading} {scope scope' : Scope}
    (matched : one.Matches two scope scope') {position : Nat} {evaluator evaluator' : Evaluator}
    (evaluators : evaluator.Alike evaluator') (formed : evaluator.WellFormed) {exprs : List Expr}
    {values values' : List Value} :
    one.program.ExprValues one.registry reading scope position evaluator exprs values →
    two.program.ExprValues two.registry reading scope' position evaluator' exprs values' →
    (∀ expr ∈ exprs, ¬one.ExprApart two reading scope scope' position evaluator evaluator' expr) →
    List.Forall₂ Value.Alike values values'
  | .nil, .nil, _ => .nil
  | .cons value values, .cons value' values', together =>
    .cons ⟨value.same shares matched evaluators formed value' (together _ List.mem_cons_self),
        value.wellFormed shares.formed formed⟩
      (values.same shares matched evaluators formed values'
        fun expr member => together expr (List.mem_cons_of_mem _ member))
termination_by structural derivation => derivation

theorem FixedType.same (shares : one.Shares two) {reading : Reading} {scope scope' : Scope}
    (matched : one.Matches two scope scope') {position : Nat} {evaluator evaluator' : Evaluator}
    (evaluators : evaluator.Alike evaluator') (formed : evaluator.WellFormed) {type : Option TypeExpr}
    {fixed fixed' : Option ValueType} :
    one.program.FixedType one.registry reading scope position evaluator type fixed →
    two.program.FixedType two.registry reading scope' position evaluator' type fixed' →
    (∀ width, type.bind TypeExpr.width? = some width →
      ¬one.ExprApart two reading scope scope' position evaluator evaluator' width) → fixed = fixed'
  | .undeclared, .undeclared, _ => rfl
  | .bool, .bool, _ => rfl
  | .int, .int, _ => rfl
  | .oneLogic, .oneLogic, _ => rfl
  | .oneBit, .oneBit, _ => rfl
  | .logic value count _ _, .logic value' count' _ _, together => by
    rw [Value.toCount?_same (value.same shares matched evaluators formed value' (together _ rfl)), count] at count'
    rw [Option.some.inj count']
  | .bit value count _ _, .bit value' count' _ _, together => by
    rw [Value.toCount?_same (value.same shares matched evaluators formed value' (together _ rfl)), count] at count'
    rw [Option.some.inj count']
  | .named, .named, _ => rfl
  | .reference, .reference, _ => rfl
  | .array, .array, _ => rfl
termination_by structural derivation => derivation

theorem ReferenceValue.same (shares : one.Shares two) {reading : Reading} {scope scope' : Scope}
    (matched : one.Matches two scope scope') {position : Nat} {reference : Reference} {value value' : Value} :
    one.program.ReferenceValue one.registry reading scope position reference value →
    two.program.ReferenceValue two.registry reading scope' position reference value' →
    ¬one.ReferenceApart two reading scope scope' position reference → value.Same value'
  | .instantiated generic made values accepted found member value,
      .instantiated generic' made' values' accepted' found' member' value', together => by
    rw [shares.generic?, generic] at generic'
    cases generic'
    rw [member] at member'
    cases member'
    have evaluators := shares.alike_evaluator matched made made'
    have formed := wellFormed_evaluator shares.formed made
    have all := values.same shares matched evaluators formed values'
      fun _ member apart => together (.argument made made' member apart)
    have binds : one.program.Binds _ _ _ _ _ _ := ⟨_, _, made, values, accepted⟩
    have binds' : two.program.Binds _ _ _ _ _ _ := ⟨_, _, made', values', accepted'⟩
    have accepts := together ∘ .parameter generic made made' values values'
    rw [evaluators.defaultWidth] at accepts accepted'
    have bound := alike_acceptFrom (.ofWidth _) all accepts accepted accepted'
    -- equal arguments lead to instances for equal sets
    have reached := Ground.Matches.of_find? found found' (Arguments.same_of_alike bound)
    have same := value.same shares reached value'
      (together <| .instantiated generic binds binds' found found' member ·)
    exact Value.same_trans (reading.same_apply _ _)
      (Value.same_trans same (Value.same_symm (reading.same_apply _ _)))
  | .instantiated generic _ _ _ _ _ _, .plain plain _ _ _, _ => by
    rw [shares.plain?, plain?_of_generic? generic] at plain
    cases plain
  | .plain plain _ _ _, .instantiated generic _ _ _ _ _ _, _ => by
    rw [shares.generic?] at generic
    rw [plain?_of_generic? generic] at plain
    cases plain
  | .plain plain _ member value, .plain plain' _ member' value', together => by
    rw [shares.plain?, plain] at plain'
    cases plain'
    rw [member] at member'
    cases member'
    exact value.same shares .package value' (together <| .plain plain member ·)
termination_by structural derivation => derivation

end

end Program
end Monomorph
