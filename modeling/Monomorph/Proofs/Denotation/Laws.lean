import Monomorph.Proofs.Denotation.Rules
import Monomorph.Pass.Weight

/-! Laws of denotation: a name has at most one value, it keeps its value while the
registry grows, and values are well formed when the argument sets of the registry are.
-/

set_option autoImplicit false

namespace Monomorph

theorem Value.wellFormed_convert? {value result : Value} {fixed : Option ValueType}
    (formed : value.WellFormed) (found : value.convert? fixed = some result) : result.WellFormed := by
  cases fixed with
  | none =>
    cases found
    exact formed
  | some expected => exact Value.wellFormed_coerce? formed found

theorem GenericParameter.wellFormed_accept? {parameter : GenericParameter} {earlier : Evaluator}
    {value result : Value} (formed : value.WellFormed)
    (found : parameter.accept? earlier value = some result) : result.WellFormed := by
  unfold accept? at found
  split at found
  · cases found
    exact formed
  · split at found
    · exact Value.wellFormed_convert? formed found
    · cases found

theorem length_acceptFrom {earlier : Evaluator} {parameters : List GenericParameter} {values : List Value}
    {bound : Arguments} (found : acceptFrom earlier parameters values = some bound) :
    values.length = parameters.length ∧ bound.length = parameters.length := by
  induction parameters generalizing earlier values bound with
  | nil =>
    cases values with
    | nil =>
      cases found
      exact ⟨rfl, rfl⟩
    | cons first rest => cases found
  | cons parameter parameters ih =>
    cases values with
    | nil => cases found
    | cons first rest =>
      obtain ⟨value, accepted, found⟩ := Option.bind_eq_some_iff.mp found
      obtain ⟨others, continued, found⟩ := Option.bind_eq_some_iff.mp found
      cases found
      obtain ⟨given, taken⟩ := ih continued
      exact ⟨congrArg Nat.succ given, congrArg Nat.succ taken⟩

theorem wellFormed_acceptFrom {earlier : Evaluator} {parameters : List GenericParameter}
    {values : List Value} {bound : Arguments} (formed : ∀ value ∈ values, value.WellFormed)
    (found : acceptFrom earlier parameters values = some bound) : bound.WellFormed := by
  induction parameters generalizing earlier values bound with
  | nil =>
    cases values with
    | nil =>
      cases found
      intro value member
      cases member
    | cons first rest => cases found
  | cons parameter parameters ih =>
    cases values with
    | nil => cases found
    | cons first rest =>
      obtain ⟨value, accepted, found⟩ := Option.bind_eq_some_iff.mp found
      obtain ⟨others, continued, found⟩ := Option.bind_eq_some_iff.mp found
      cases found
      intro result member
      rcases List.mem_cons.mp member with here | later
      · rw [here]
        exact GenericParameter.wellFormed_accept? (formed first List.mem_cons_self) accepted
      · have formed' := fun other there => formed other (List.mem_cons_of_mem first there)
        exact ih formed' continued result later

namespace Program

variable {program : Program} {registry : Registry}

theorem plain?_of_generic? {name : String} {package : Package}
    (generic : program.generic? name = some package) : program.plain? name = none := by
  unfold generic? at generic
  obtain ⟨found, isGeneric⟩ := Option.filter_eq_some_iff.mp generic
  simp [plain?, found, isGeneric]

theorem name_of_generic? {name : String} {package : Package}
    (generic : program.generic? name = some package) : package.name = name :=
  (package_mem_of_package? (generic?_eq_some generic)).2

theorem name_of_plain? {name : String} {package : Package} (plain : program.plain? name = some package) :
    package.name = name :=
  (package_mem_of_package? (plain?_eq_some plain)).2

theorem package?_eq_none {name : String} (notGeneric : program.generic? name = none)
    (notPlain : program.plain? name = none) : program.package? name = none := by
  cases found : program.package? name with
  | none => rfl
  | some package =>
    simp only [generic?, plain?, found, Option.filter_some] at notGeneric notPlain
    cases isGeneric : package.isGeneric <;> simp [isGeneric] at notGeneric notPlain

theorem defaultWidth_evaluator {scope : Scope} {evaluator : Evaluator}
    (made : program.evaluator registry scope = .ok evaluator) :
    evaluator.defaultWidth = program.emptyEvaluator.defaultWidth := by
  unfold Program.evaluator at made
  split at made
  · split at made <;> cases made <;> rfl
  · cases made
    rfl
  · cases made
    rfl

/-- The evaluator of a scope stays the same once the arguments of the scope are known. -/
theorem evaluator_extends {first last : Registry} {scope : Scope} {evaluator : Evaluator}
    (grows : first.Extends last) (made : program.evaluator first scope = .ok evaluator) :
    program.evaluator last scope = .ok evaluator := by
  cases scope with
  | instantiated target =>
    simp only [Program.evaluator] at made ⊢
    cases resolved : first.resolve target with
    | error fault =>
      rw [resolved] at made
      cases made
    | ok arguments =>
      have kept := Registry.resolve_eq_ok.mpr (grows.get? (Registry.resolve_eq_ok.mp resolved))
      rw [resolved] at made
      rw [kept]
      exact made
  | package name => exact made
  | module name => exact made

mutual

theorem ConstantValue.unique {reading : Reading} {scope : Scope} {name : String} {first : Value} :
    program.ConstantValue registry reading scope name first →
    ∀ {second : Value}, program.ConstantValue registry reading scope name second → first = second
  | .intro found made value type converted, _, .intro found' made' value' type' converted' => by
    rw [found] at found'
    cases found'
    rw [made] at made'
    cases made'
    rw [value.unique value', type.unique type'] at converted
    rw [converted] at converted'
    exact Option.some.inj converted'
termination_by structural derivation => derivation

theorem ExprValue.unique {reading : Reading} {scope : Scope} {position : Nat} {evaluator : Evaluator}
    {expr : Expr} {first : Value} :
    program.ExprValue registry reading scope position evaluator expr first →
    ∀ {second : Value}, program.ExprValue registry reading scope position evaluator expr second →
      first = second
  | .literal value, _, .literal value' => by
    rw [value] at value'
    exact Except.ok.inj value'
  | .parameter bound, _, .parameter bound' => by
    rw [bound] at bound'
    exact Option.some.inj bound'
  | .parameter bound, _, .constant free _ _ _ => by
    rw [bound] at free
    cases free
  | .constant free _ _ _, _, .parameter bound => by
    rw [bound] at free
    cases free
  | .constant _ _ _ value, _, .constant _ _ _ value' => value.unique value'
  | .reference value, _, .reference value' => value.unique value'
  | .binary left right value, _, .binary left' right' value' => by
    rw [left.unique left', right.unique right'] at value
    rw [value] at value'
    exact Except.ok.inj value'
  | .unary operand value, _, .unary operand' value' => by
    rw [operand.unique operand'] at value
    rw [value] at value'
    exact Except.ok.inj value'
  | .call found values value, _, .call found' values' value' => by
    rw [found] at found'
    cases found'
    rw [values.unique values'] at value
    rw [value] at value'
    exact Except.ok.inj value'
  | .ternary test value, _, .ternary test' value' => by
    -- the chosen side depends on the value of the condition
    cases test.unique test'
    exact value.unique value'
termination_by structural derivation => derivation

theorem ExprValues.unique {reading : Reading} {scope : Scope} {position : Nat} {evaluator : Evaluator}
    {exprs : List Expr} {first : List Value} :
    program.ExprValues registry reading scope position evaluator exprs first →
    ∀ {second : List Value},
      program.ExprValues registry reading scope position evaluator exprs second → first = second
  | .nil, _, .nil => rfl
  | .cons value values, _, .cons value' values' => by
    rw [value.unique value', values.unique values']
termination_by structural derivation => derivation

theorem FixedType.unique {reading : Reading} {scope : Scope} {position : Nat} {evaluator : Evaluator}
    {type : Option TypeExpr} {first : Option ValueType} :
    program.FixedType registry reading scope position evaluator type first →
    ∀ {second : Option ValueType},
      program.FixedType registry reading scope position evaluator type second → first = second
  | .undeclared, _, .undeclared => rfl
  | .bool, _, .bool => rfl
  | .int, _, .int => rfl
  | .oneLogic, _, .oneLogic => rfl
  | .oneBit, _, .oneBit => rfl
  | .logic value count _ _, _, .logic value' count' _ _ => by
    rw [value.unique value', count'] at count
    rw [Option.some.inj count]
  | .bit value count _ _, _, .bit value' count' _ _ => by
    rw [value.unique value', count'] at count
    rw [Option.some.inj count]
  | .named, _, .named => rfl
  | .reference, _, .reference => rfl
  | .array, _, .array => rfl
termination_by structural derivation => derivation

theorem ReferenceValue.unique {reading : Reading} {scope : Scope} {position : Nat}
    {reference : Reference} {first : Value} :
    program.ReferenceValue registry reading scope position reference first →
    ∀ {second : Value},
      program.ReferenceValue registry reading scope position reference second → first = second
  | .instantiated generic made values accepted found member value, _,
      .instantiated generic' made' values' accepted' found' member' value' => by
    rw [generic] at generic'
    cases generic'
    rw [made] at made'
    cases made'
    rw [values.unique values', accepted'] at accepted
    cases accepted
    rw [found] at found'
    cases found'
    rw [member] at member'
    cases member'
    rw [value.unique value']
  | .instantiated generic _ _ _ _ _ _, _, .plain plain _ _ _ => by
    rw [plain?_of_generic? generic] at plain
    cases plain
  | .plain plain _ _ _, _, .instantiated generic _ _ _ _ _ _ => by
    rw [plain?_of_generic? generic] at plain
    cases plain
  | .plain plain _ member value, _, .plain plain' _ member' value' => by
    rw [plain] at plain'
    cases plain'
    rw [member] at member'
    cases member'
    exact value.unique value'
termination_by structural derivation => derivation

end

section Growth

variable {first last : Registry}

mutual

theorem ConstantValue.mono (grows : first.Extends last) {reading : Reading} {scope : Scope} {name : String}
    {value : Value} :
    program.ConstantValue first reading scope name value → program.ConstantValue last reading scope name value
  | .intro found made value type converted =>
    .intro found (evaluator_extends grows made) (value.mono grows) (type.mono grows) converted
termination_by structural derivation => derivation

theorem ExprValue.mono (grows : first.Extends last) {reading : Reading} {scope : Scope} {position : Nat}
    {evaluator : Evaluator} {expr : Expr} {value : Value} :
    program.ExprValue first reading scope position evaluator expr value →
    program.ExprValue last reading scope position evaluator expr value
  | .literal found => .literal found
  | .parameter bound => .parameter bound
  | .constant free found visible value => .constant free found visible (value.mono grows)
  | .reference value => .reference (value.mono grows)
  | .binary left right result => .binary (left.mono grows) (right.mono grows) result
  | .unary operand result => .unary (operand.mono grows) result
  | .call found values result => .call found (values.mono grows) result
  | .ternary test value => .ternary (test.mono grows) (value.mono grows)
termination_by structural derivation => derivation

theorem ExprValues.mono (grows : first.Extends last) {reading : Reading} {scope : Scope} {position : Nat}
    {evaluator : Evaluator} {exprs : List Expr} {values : List Value} :
    program.ExprValues first reading scope position evaluator exprs values →
    program.ExprValues last reading scope position evaluator exprs values
  | .nil => .nil
  | .cons value values => .cons (value.mono grows) (values.mono grows)
termination_by structural derivation => derivation

theorem FixedType.mono (grows : first.Extends last) {reading : Reading} {scope : Scope} {position : Nat}
    {evaluator : Evaluator} {type : Option TypeExpr} {fixed : Option ValueType} :
    program.FixedType first reading scope position evaluator type fixed →
    program.FixedType last reading scope position evaluator type fixed
  | .undeclared => .undeclared
  | .bool => .bool
  | .int => .int
  | .oneLogic => .oneLogic
  | .oneBit => .oneBit
  | .logic value counted positive within => .logic (value.mono grows) counted positive within
  | .bit value counted positive within => .bit (value.mono grows) counted positive within
  | .named => .named
  | .reference => .reference
  | .array => .array
termination_by structural derivation => derivation

theorem ReferenceValue.mono (grows : first.Extends last) {reading : Reading} {scope : Scope} {position : Nat}
    {reference : Reference} {value : Value} :
    program.ReferenceValue first reading scope position reference value →
    program.ReferenceValue last reading scope position reference value
  | .instantiated generic made values accepted found member value =>
    .instantiated generic (evaluator_extends grows made) (values.mono grows) accepted (grows.find? found) member
      (value.mono grows)
  | .plain plain empty member value => .plain plain empty member (value.mono grows)
termination_by structural derivation => derivation

end

theorem Binds.mono (grows : first.Extends last) {scope : Scope} {position : Nat} {package : Package}
    {arguments : List Expr} {bound : Arguments}
    (binds : program.Binds first scope position package arguments bound) :
    program.Binds last scope position package arguments bound := by
  obtain ⟨evaluator, values, made, evaluated, accepted⟩ := binds
  exact ⟨evaluator, values, evaluator_extends grows made, evaluated.mono grows, accepted⟩

end Growth

theorem wellFormed_evaluator {scope : Scope} {evaluator : Evaluator} (formed : registry.WellFormed)
    (made : program.evaluator registry scope = .ok evaluator) : evaluator.WellFormed := by
  unfold Program.evaluator at made
  split at made
  · split at made
    · cases made
    · rename_i resolved _
      cases made
      exact Evaluator.wellFormed_bindAll (formed.get? (Registry.resolve_eq_ok.mp resolved))
    · cases made
      exact Evaluator.wellFormed_ofWidth _
  · cases made
    exact Evaluator.wellFormed_ofWidth _
  · cases made
    exact Evaluator.wellFormed_ofWidth _

mutual

theorem ConstantValue.wellFormed (formed : registry.WellFormed) {reading : Reading} {scope : Scope}
    {name : String} {result : Value} :
    program.ConstantValue registry reading scope name result → result.WellFormed
  | .intro _ made value _ converted =>
    Value.wellFormed_convert? (value.wellFormed formed (wellFormed_evaluator formed made)) converted
termination_by structural derivation => derivation

theorem ExprValue.wellFormed (formed : registry.WellFormed) {reading : Reading} {scope : Scope}
    {position : Nat} {evaluator : Evaluator} (bound : evaluator.WellFormed) {expr : Expr}
    {result : Value} :
    program.ExprValue registry reading scope position evaluator expr result → result.WellFormed
  | .literal value => Evaluator.wellFormed_literal value
  | .parameter found => bound _ _ found
  | .constant _ _ _ value => value.wellFormed formed
  | .reference value => value.wellFormed formed
  | .binary left right value =>
    Value.wellFormed_binary (left.wellFormed formed bound) (right.wellFormed formed bound) value
  | .unary operand value => Value.wellFormed_unary (operand.wellFormed formed bound) value
  | .call _ values value => Builtin.wellFormed_apply (values.wellFormed formed bound) value
  | .ternary _ value => value.wellFormed formed bound
termination_by structural derivation => derivation

theorem ExprValues.wellFormed (formed : registry.WellFormed) {reading : Reading} {scope : Scope}
    {position : Nat} {evaluator : Evaluator} (bound : evaluator.WellFormed) {exprs : List Expr}
    {results : List Value} :
    program.ExprValues registry reading scope position evaluator exprs results →
    ∀ result ∈ results, result.WellFormed
  | .nil => fun _ member => nomatch member
  | .cons value values => fun result member => by
    rcases List.mem_cons.mp member with first | later
    · rw [first]
      exact value.wellFormed formed bound
    · exact values.wellFormed formed bound result later
termination_by structural derivation => derivation

theorem ReferenceValue.wellFormed (formed : registry.WellFormed) {reading : Reading} {scope : Scope}
    {position : Nat} {reference : Reference} {result : Value} :
    program.ReferenceValue registry reading scope position reference result → result.WellFormed
  | .instantiated _ _ _ _ _ _ value =>
    Value.wellFormed_same (Value.same_symm (reading.same_apply _ _)) (value.wellFormed formed)
  | .plain _ _ _ value => value.wellFormed formed
termination_by structural derivation => derivation

end

theorem Binds.wellFormed {scope : Scope} {position : Nat} {package : Package} {arguments : List Expr}
    {bound : Arguments} (formed : registry.WellFormed)
    (binds : program.Binds registry scope position package arguments bound) : bound.WellFormed := by
  obtain ⟨evaluator, values, made, evaluated, accepted⟩ := binds
  exact wellFormed_acceptFrom (evaluated.wellFormed formed (wellFormed_evaluator formed made)) accepted

theorem Binds.accepts {scope : Scope} {position : Nat} {package : Package} {arguments : List Expr}
    {bound : Arguments} (binds : program.Binds registry scope position package arguments bound)
    (generic : program.generic? package.name = some package) : program.Accepts package.name bound := by
  obtain ⟨evaluator, values, made, _, accepted⟩ := binds
  exact ⟨package, values, generic, defaultWidth_evaluator made ▸ accepted⟩

theorem Accepts.length_eq {base : String} {bound : Arguments} (accepts : program.Accepts base bound)
    {package : Package} (generic : program.generic? base = some package) :
    bound.length = package.parameters.length := by
  obtain ⟨source, values, same, accepted⟩ := accepts
  cases same.symm.trans generic
  exact (length_acceptFrom accepted).2

theorem Binds.unique {scope : Scope} {position : Nat} {package : Package} {arguments : List Expr}
    {first second : Arguments} (binds : program.Binds registry scope position package arguments first)
    (again : program.Binds registry scope position package arguments second) : first = second := by
  obtain ⟨evaluator, values, made, evaluated, accepted⟩ := binds
  obtain ⟨evaluator', values', made', evaluated', accepted'⟩ := again
  rw [made] at made'
  cases made'
  rw [evaluated.unique evaluated', accepted'] at accepted
  exact Option.some.inj accepted.symm

end Program
end Monomorph
