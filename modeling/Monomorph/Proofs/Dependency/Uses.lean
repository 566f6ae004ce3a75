import Monomorph.Proofs.Instance.Listing
import Monomorph.Proofs.Lowering.Demand
import Monomorph.Proofs.Pass.Evaluation

/-! What the specialization of an instance refers to.

An instance uses the instances that its items lead to: where a reference is directed,
and where constants, sizes and encodings are evaluated. Constants of the same body and
of plain packages are followed to the instances that they lead to in turn; a constant
of another instance is that instance's own affair. Of a conditional that is evaluated,
the chosen side counts.
-/

set_option autoImplicit false

namespace Monomorph

/-- The operands that are evaluated whatever their values are. -/
def Expr.operands : Expr → List Expr
  | .binary _ left right => [left, right]
  | .unary _ operand => [operand]
  | .call _ arguments => arguments
  | .ternary condition _ _ => [condition]
  | .literal _ | .ident _ | .reference .. | .field .. => []

def TypeExpr.width? : TypeExpr → Option Expr
  | .logic width | .bit width => width
  | .int _ | .bool | .named _ | .reference _ | .array .. => none

namespace Program

mutual

/-- The instances that the evaluation of a constant refers to. -/
inductive ConstantUses (program : Program) (registry : Registry) : Scope → String → Instance → Prop where
  | value {scope : Scope} {name : String} {index : Nat} {decl : ConstDecl} {evaluator : Evaluator}
      {used : Instance} :
      program.findConst scope name = some (index, decl) →
      program.evaluator registry scope = .ok evaluator →
      ExprUses program registry scope index evaluator decl.value used →
      ConstantUses program registry scope name used
  | type {scope : Scope} {name : String} {index : Nat} {decl : ConstDecl} {evaluator : Evaluator}
      {width : Expr} {used : Instance} :
      program.findConst scope name = some (index, decl) →
      program.evaluator registry scope = .ok evaluator →
      decl.type.bind TypeExpr.width? = some width →
      ExprUses program registry scope index evaluator width used →
      ConstantUses program registry scope name used

inductive ExprUses (program : Program) (registry : Registry) :
    Scope → Nat → Evaluator → Expr → Instance → Prop where
  | constant {scope : Scope} {position : Nat} {evaluator : Evaluator} {name : String} {index : Nat}
      {decl : ConstDecl} {used : Instance} :
      evaluator.bindings.get? name = none →
      program.findConst scope name = some (index, decl) → index < position →
      ConstantUses program registry scope name used →
      ExprUses program registry scope position evaluator (.ident name) used
  | reference {scope : Scope} {position : Nat} {evaluator : Evaluator} {package : String}
      {arguments : List Expr} {members : List String} {span : Span} {used : Instance} :
      ReferenceUses program registry scope position ⟨package, arguments, members, span⟩ used →
      ExprUses program registry scope position evaluator (.reference package arguments members span) used
  | operand {scope : Scope} {position : Nat} {evaluator : Evaluator} {expr operand : Expr} {used : Instance} :
      operand ∈ expr.operands →
      ExprUses program registry scope position evaluator operand used →
      ExprUses program registry scope position evaluator expr used
  | chosen {scope : Scope} {position : Nat} {evaluator : Evaluator} {condition whenTrue whenFalse : Expr}
      {test : Value} {used : Instance} :
      program.ExprValue registry .value scope position evaluator condition test →
      ExprUses program registry scope position evaluator (if test.isTruthy then whenTrue else whenFalse) used →
      ExprUses program registry scope position evaluator (.ternary condition whenTrue whenFalse) used

/-- The value of a reference: where it leads, and what a constant of a plain package leads to. -/
inductive ReferenceUses (program : Program) (registry : Registry) :
    Scope → Nat → Reference → Instance → Prop where
  | target {scope : Scope} {position : Nat} {reference : Reference} {used : Instance} :
      TargetUses program registry scope position reference used →
      ReferenceUses program registry scope position reference used
  | plain {scope : Scope} {position : Nat} {reference : Reference} {package : Package} {member : String}
      {used : Instance} :
      program.plain? reference.package = some package →
      reference.members = [member] →
      ConstantUses program registry (.package package.name) member used →
      ReferenceUses program registry scope position reference used

inductive TargetUses (program : Program) (registry : Registry) :
    Scope → Nat → Reference → Instance → Prop where
  | reached {scope : Scope} {position : Nat} {reference : Reference} {package : Package} {used : Instance} :
      program.Reaches registry scope position reference (.instantiated package used) →
      TargetUses program registry scope position reference used
  | argument {scope : Scope} {position : Nat} {reference : Reference} {evaluator : Evaluator}
      {argument : Expr} {used : Instance} :
      program.evaluator registry scope = .ok evaluator →
      argument ∈ reference.arguments →
      ExprUses program registry scope position evaluator argument used →
      TargetUses program registry scope position reference used

end

inductive DemandUses (program : Program) (registry : Registry) (context : Context) : Demand → Instance → Prop where
  | direct {reference : Reference} {used : Instance} :
      program.TargetUses registry context.scope context.position reference used →
      DemandUses program registry context (.direct reference) used
  | size {size : Expr} {used : Instance} :
      program.ExprUses registry context.scope context.position context.evaluator size used →
      DemandUses program registry context (.size size) used
  | encoding {value : Expr} {used : Instance} :
      program.ExprUses registry context.scope context.position context.evaluator value used →
      DemandUses program registry context (.encoding value) used
  | constant {name : String} {site : Span} {used : Instance} :
      program.ConstantUses registry context.scope name used →
      DemandUses program registry context (.constant name site) used

/-- The specialization of an instance refers to an instance. -/
inductive Uses (program : Program) (registry : Registry) (user used : Instance) : Prop where
  | intro {source : Package} {evaluator : Evaluator} {item : PackageItem} {position : Nat} {demand : Demand} :
      program.generic? user.base = some source →
      program.evaluator registry (.instantiated user) = .ok evaluator →
      (item, position) ∈ source.items.zipIdx →
      demand ∈ (instanceContext user evaluator source.span position).demands item →
      program.DemandUses registry (instanceContext user evaluator source.span position) demand used →
      Uses program registry user used

variable {program : Program} {registry : Registry}

theorem ConstantUses.uses {user used : Instance} {name : String}
    (uses : program.ConstantUses registry (.instantiated user) name used) : program.Uses registry user used := by
  have declared : ∃ index decl evaluator,
      program.findConst (.instantiated user) name = some (index, decl) ∧
        program.evaluator registry (.instantiated user) = .ok evaluator := by
    cases uses with
    | value found made _ => exact ⟨_, _, _, found, made⟩
    | type found made _ _ => exact ⟨_, _, _, found, made⟩
  obtain ⟨index, decl, evaluator, found, made⟩ := declared
  obtain ⟨source, generic, found⟩ := Option.bind_eq_some_iff.mp found
  obtain ⟨listed, named⟩ := mem_of_findConst found
  obtain ⟨item, member, is⟩ := List.mem_map.mp listed
  obtain ⟨position, there⟩ := List.mem_iff_getElem?.mp member
  cases item with
  | const other =>
    cases is
    have demanded : Demand.constant decl.name decl.span ∈
        (instanceContext user evaluator source.span position).demands (.const decl) := List.mem_cons_self
    refine .intro generic made (List.mk_mem_zipIdx_iff_getElem?.mpr there) demanded (.constant ?_)
    rw [named]
    exact uses
  | typeDef name type => cases is
  | struct name kind fields => cases is
  | enum name base variants => cases is
  | function decl => cases is

theorem ExprValues.exists_of_mem {reading : Reading} {scope : Scope} {position : Nat} {evaluator : Evaluator}
    {exprs : List Expr} {values : List Value} {expr : Expr}
    (evaluated : program.ExprValues registry reading scope position evaluator exprs values)
    (member : expr ∈ exprs) : ∃ value, program.ExprValue registry reading scope position evaluator expr value := by
  induction exprs generalizing values with
  | nil => cases member
  | cons first rest ih =>
    cases evaluated with
    | cons here others =>
      rcases List.mem_cons.mp member with same | later
      · exact ⟨_, same ▸ here⟩
      · exact ih others later

theorem ExprValue.exists_of_operand {reading : Reading} {scope : Scope} {position : Nat} {evaluator : Evaluator}
    {expr operand : Expr} {value : Value}
    (evaluated : program.ExprValue registry reading scope position evaluator expr value)
    (member : operand ∈ expr.operands) :
    ∃ value, program.ExprValue registry reading scope position evaluator operand value := by
  cases evaluated with
  | literal found => cases member
  | parameter bound => cases member
  | constant free found visible value => cases member
  | reference value => cases member
  | binary left right result =>
    rcases List.mem_pair.mp member with here | here
    · exact ⟨_, here ▸ left⟩
    · exact ⟨_, here ▸ right⟩
  | unary value result => exact ⟨_, List.mem_singleton.mp member ▸ value⟩
  | call found values result => exact values.exists_of_mem member
  | ternary test chosen => exact ⟨_, List.mem_singleton.mp member ▸ test⟩

theorem FixedType.exists_of_width {reading : Reading} {scope : Scope} {position : Nat} {evaluator : Evaluator}
    {type : Option TypeExpr} {fixed : Option ValueType} {width : Expr}
    (typed : program.FixedType registry reading scope position evaluator type fixed)
    (found : type.bind TypeExpr.width? = some width) :
    ∃ value, program.ExprValue registry reading scope position evaluator width value := by
  cases typed with
  | logic value count positive within =>
    cases found
    exact ⟨_, value⟩
  | bit value count positive within =>
    cases found
    exact ⟨_, value⟩
  | undeclared => cases found
  | bool => cases found
  | int => cases found
  | oneLogic => cases found
  | oneBit => cases found
  | named => cases found
  | reference => cases found
  | array => cases found

section Known

variable {first last : Registry}

theorem Reaches.eq_of_extends {scope : Scope} {position : Nat} {reference : Reference} {package : Package}
    {used : Instance} {target : Target} (grows : first.Extends last)
    (reaches : program.Reaches first scope position reference target)
    (reached : program.Reaches last scope position reference (.instantiated package used)) :
    target = .instantiated package used ∧ first.Knows used := by
  cases reached with
  | instantiated generic binds found =>
    cases reaches with
    | instantiated generic' binds' found' =>
      rw [generic] at generic'
      cases generic'
      cases binds.unique (binds'.mono grows)
      have same := grows.find? found'
      rw [found] at same
      cases same
      exact ⟨rfl, Registry.knows_of_find? found'⟩
    | plain plain _ =>
      rw [plain?_of_generic? generic] at plain
      cases plain
    | unknown none _ =>
      rw [generic?_eq_some generic] at none
      cases none

theorem ReferenceValue.reaches {reading : Reading} {scope : Scope} {position : Nat} {reference : Reference}
    {value : Value} (evaluated : program.ReferenceValue registry reading scope position reference value) :
    ∃ target, program.Reaches registry scope position reference target := by
  cases evaluated with
  | instantiated generic made values accepted found member value =>
    exact ⟨_, .instantiated generic ⟨_, _, made, values, accepted⟩ found⟩
  | plain plain none member value => exact ⟨_, .plain plain none⟩

mutual

/-- What has a value is done with asking for instances: however the registry grows, it refers to
instances that are known already. -/
theorem ConstantUses.known (grows : first.Extends last) {scope : Scope} {name : String} {used : Instance} :
    program.ConstantUses last scope name used →
    ∀ {value : Value}, program.ConstantValue first .value scope name value → first.Knows used
  | .value found made uses, _, .intro found' made' value type converted => by
    rw [found] at found'
    cases found'
    rw [evaluator_extends grows made'] at made
    cases made
    exact uses.known grows value
  | .type found made width uses, _, .intro found' made' value type converted => by
    rw [found] at found'
    cases found'
    rw [evaluator_extends grows made'] at made
    cases made
    obtain ⟨size, evaluated⟩ := type.exists_of_width width
    exact uses.known grows evaluated
termination_by structural derivation => derivation

theorem ExprUses.known (grows : first.Extends last) {scope : Scope} {position : Nat} {evaluator : Evaluator}
    {expr : Expr} {used : Instance} :
    program.ExprUses last scope position evaluator expr used →
    ∀ {value : Value}, program.ExprValue first .value scope position evaluator expr value → first.Knows used
  | .constant free _ _ uses, _, evaluated => by
    cases evaluated with
    | parameter bound =>
      rw [bound] at free
      cases free
    | constant _ _ _ value => exact uses.known grows value
  | .reference uses, _, .reference value => uses.known grows value
  | .operand member uses, _, evaluated => by
    obtain ⟨value, operand⟩ := evaluated.exists_of_operand member
    exact uses.known grows operand
  | .chosen test uses, _, .ternary test' chosen => by
    -- the condition has the same value in the larger registry, so the same side is chosen
    cases test.unique (test'.mono grows)
    exact uses.known grows chosen
termination_by structural derivation => derivation

theorem ReferenceUses.known (grows : first.Extends last) {scope : Scope} {position : Nat}
    {reference : Reference} {used : Instance} :
    program.ReferenceUses last scope position reference used →
    ∀ {value : Value}, program.ReferenceValue first .value scope position reference value → first.Knows used
  | .target uses, _, evaluated => by
    obtain ⟨target, reaches⟩ := evaluated.reaches
    exact uses.known grows reaches
  | .plain plain members uses, _, evaluated => by
    cases evaluated with
    | instantiated generic made values accepted found member value =>
      rw [plain?_of_generic? generic] at plain
      cases plain
    | plain plain' none member value =>
      rw [plain] at plain'
      cases plain'
      rw [members] at member
      cases member
      exact uses.known grows value
termination_by structural derivation => derivation

theorem TargetUses.known (grows : first.Extends last) {scope : Scope} {position : Nat} {reference : Reference}
    {used : Instance} :
    program.TargetUses last scope position reference used →
    ∀ {target : Target}, program.Reaches first scope position reference target → first.Knows used
  | .reached reached, _, reaches => (reaches.eq_of_extends grows reached).2
  | .argument made member uses, _, reaches => by
    cases reaches with
    | instantiated generic binds found =>
      obtain ⟨evaluator, values, made', evaluated, accepted⟩ := binds
      rw [evaluator_extends grows made'] at made
      cases made
      obtain ⟨value, evaluated⟩ := evaluated.exists_of_mem member
      exact uses.known grows evaluated
    | plain plain none =>
      rw [none] at member
      cases member
    | unknown absent none =>
      rw [none] at member
      cases member
termination_by structural derivation => derivation

end

/-- A demand can be met: what it asks for has a value, or leads somewhere. -/
def Meets (program : Program) (registry : Registry) (context : Context) : Demand → Prop
  | .direct reference => ∃ target, program.Reaches registry context.scope context.position reference target
  | .size expr | .encoding expr => ∃ value,
    program.ExprValue registry .value context.scope context.position context.evaluator expr value
  | .constant name _ => ∃ value, program.ConstantValue registry .value context.scope name value

theorem DemandUses.known (grows : first.Extends last) {context : Context} {demand : Demand} {used : Instance}
    (uses : program.DemandUses last context demand used) (meets : program.Meets first context demand) :
    first.Knows used := by
  cases uses with
  | direct uses =>
    obtain ⟨target, reaches⟩ := meets
    exact uses.known grows reaches
  | size uses =>
    obtain ⟨value, evaluated⟩ := meets
    exact uses.known grows evaluated
  | encoding uses =>
    obtain ⟨value, evaluated⟩ := meets
    exact uses.known grows evaluated
  | constant uses =>
    obtain ⟨value, evaluated⟩ := meets
    exact uses.known grows evaluated

/-- An instance whose demands can all be met uses instances that are known already. -/
theorem Uses.known (grows : first.Extends last) {user used : Instance} {source : Package} {evaluator : Evaluator}
    (uses : program.Uses last user used) (generic : program.generic? user.base = some source)
    (made : program.evaluator first (.instantiated user) = .ok evaluator)
    (meets : ∀ item position, (item, position) ∈ source.items.zipIdx →
      ∀ demand ∈ (instanceContext user evaluator source.span position).demands item,
        program.Meets first (instanceContext user evaluator source.span position) demand) :
    first.Knows used := by
  cases uses with
  | intro generic' made' member demanded uses =>
    rw [generic] at generic'
    cases generic'
    rw [evaluator_extends grows made] at made'
    cases made'
    exact uses.known grows (meets _ _ member _ demanded)

end Known

end Program
end Monomorph
