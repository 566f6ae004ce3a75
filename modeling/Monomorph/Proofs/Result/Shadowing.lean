import Monomorph.Proofs.Result.References
import Monomorph.Proofs.Result.Scoping

/-! Names of functions in the arguments of references.

The arguments of a reference are bound in the scope of the package, also where they
stand in a function. A parameter of the function or a local does not count there: its
name is read as the parameter or the constant of the package that it hides. Only where
it hides nothing of the package do the arguments do without it.
-/

set_option autoImplicit false

namespace Monomorph

mutual

/-- The expression with some names taken out. It has no value where it would read one of them. -/
def Expr.obscure (names : List String) : Expr → Expr
  | .literal value => .literal value
  | .ident name => if names.contains name then .field (.ident name) name else .ident name
  | .reference package arguments members span =>
    .reference package (Expr.listObscure names arguments) members span
  | .binary op left right => .binary op (left.obscure names) (right.obscure names)
  | .unary op operand => .unary op (operand.obscure names)
  | .call function arguments => .call function (Expr.listObscure names arguments)
  | .ternary condition whenTrue whenFalse =>
    .ternary (condition.obscure names) (whenTrue.obscure names) (whenFalse.obscure names)
  | .field base name => .field (base.obscure names) name

def Expr.listObscure (names : List String) : List Expr → List Expr
  | [] => []
  | first :: rest => first.obscure names :: Expr.listObscure names rest

end

theorem Expr.eq_nil_of_listObscure {names : List String} {exprs : List Expr}
    (empty : Expr.listObscure names exprs = []) : exprs = [] := by
  cases exprs with
  | nil => rfl
  | cons first rest => cases empty

theorem Expr.obscure_mem_listObscure {names : List String} {exprs : List Expr} {expr : Expr} (member : expr ∈ exprs) :
    expr.obscure names ∈ Expr.listObscure names exprs := by
  induction exprs with
  | nil => cases member
  | cons first rest ih =>
    rcases List.mem_cons.mp member with same | later
    · rw [same]
      exact List.mem_cons_self
    · exact List.mem_cons_of_mem _ (ih later)

namespace Program

variable {program : Program} {registry : Registry} {scope : Scope} {position : Nat} {names : List String}

mutual

theorem ExprValue.of_obscure : ∀ {expr : Expr} {evaluator : Evaluator} {value : Value},
    program.ExprValue registry .value scope position evaluator (expr.obscure names) value →
    program.ExprValue registry .value scope position evaluator expr value
  | .literal _, _, _, denotes => denotes
  | .ident name, _, _, denotes => by
    rw [Expr.obscure] at denotes
    split at denotes
    · cases denotes
    · exact denotes
  | .reference _ _ _ _, _, _, .reference (.instantiated generic made values accepted found member denotes) =>
    .reference (.instantiated generic made values.of_obscure accepted found member denotes)
  | .reference _ _ _ _, _, _, .reference (.plain plain empty member denotes) =>
    .reference (.plain plain (Expr.eq_nil_of_listObscure empty) member denotes)
  | .binary _ _ _, _, _, .binary left right applied => .binary left.of_obscure right.of_obscure applied
  | .unary _ _, _, _, .unary operand applied => .unary operand.of_obscure applied
  | .call _ _, _, _, .call builtin values applied => .call builtin values.of_obscure applied
  | .ternary _ _ _, _, _, .ternary condition chosen => by
    refine .ternary condition.of_obscure ?_
    split at chosen
    · rw [if_pos ‹_›]
      exact chosen.of_obscure
    · rw [if_neg ‹_›]
      exact chosen.of_obscure

theorem ExprValues.of_obscure : ∀ {exprs : List Expr} {evaluator : Evaluator} {values : List Value},
    program.ExprValues registry .value scope position evaluator (Expr.listObscure names exprs) values →
    program.ExprValues registry .value scope position evaluator exprs values
  | [], _, _, denotes => denotes
  | _ :: _, _, _, .cons first rest => .cons first.of_obscure rest.of_obscure

end

def Known (program : Program) (registry : Registry) (scope : Scope) (position : Nat) (name : String) : Prop :=
  ∃ evaluator value, program.evaluator registry scope = .ok evaluator ∧
    program.ExprValue registry .value scope position evaluator (.ident name) value

variable {evaluator : Evaluator}

mutual

/-- An expression has its values without names that it mentions only if they are not known. -/
theorem ExprValue.obscure (made : program.evaluator registry scope = .ok evaluator) : ∀ {expr : Expr} {value : Value},
    (∀ name ∈ names, program.Known registry scope position name → expr.mentions [name] = false) →
    program.ExprValue registry .value scope position evaluator expr value →
    program.ExprValue registry .value scope position evaluator (expr.obscure names) value
  | .literal _, _, _, denotes => denotes
  | .ident name, _, unread, denotes => by
    rw [Expr.obscure]
    split
    · rename_i hidden
      have spared := unread name (List.contains_iff_mem.mp hidden) ⟨evaluator, _, made, denotes⟩
      simp [Expr.mentions] at spared
    · exact denotes
  | .reference _ _ _ _, _, unread, .reference (.instantiated generic made' values accepted found member denotes) => by
    cases made.symm.trans made'
    exact .reference (.instantiated generic made (ExprValues.obscure made unread values) accepted found member denotes)
  | .reference _ _ _ _, _, _, .reference (.plain plain empty member denotes) => by
    cases empty
    exact .reference (.plain plain rfl member denotes)
  | .binary _ _ _, _, unread, .binary left right applied => by
    have parts := fun name hidden known => Bool.or_eq_false_iff.mp (unread name hidden known)
    exact .binary (left.obscure made fun name hidden known => (parts name hidden known).1)
      (right.obscure made fun name hidden known => (parts name hidden known).2) applied
  | .unary _ _, _, unread, .unary operand applied => .unary (operand.obscure made unread) applied
  | .call _ _, _, unread, .call builtin values applied => .call builtin (values.obscure made unread) applied
  | .ternary _ _ _, _, unread, .ternary condition chosen => by
    have parts := fun name hidden known => Bool.or_eq_false_iff.mp (unread name hidden known)
    have first := fun name hidden known => Bool.or_eq_false_iff.mp (parts name hidden known).1
    refine .ternary (condition.obscure made fun name hidden known => (first name hidden known).1) ?_
    split at chosen
    · rw [if_pos ‹_›]
      exact chosen.obscure made fun name hidden known => (first name hidden known).2
    · rw [if_neg ‹_›]
      exact chosen.obscure made fun name hidden known => (parts name hidden known).2

theorem ExprValues.obscure (made : program.evaluator registry scope = .ok evaluator) :
    ∀ {exprs : List Expr} {values : List Value},
    (∀ name ∈ names, program.Known registry scope position name → Expr.listMentions [name] exprs = false) →
    program.ExprValues registry .value scope position evaluator exprs values →
    program.ExprValues registry .value scope position evaluator (Expr.listObscure names exprs) values
  | [], _, _, denotes => denotes
  | _ :: _, _, unread, .cons first rest => by
    have parts := fun name hidden known => Bool.or_eq_false_iff.mp (unread name hidden known)
    exact .cons (first.obscure made fun name hidden known => (parts name hidden known).1)
      (rest.obscure made fun name hidden known => (parts name hidden known).2)

end

variable (program registry scope position) in
/-- What a reference is directed at whose arguments mention names of a function: the instance for the set that the
arguments are bound to in the scope of the package, whatever these names are in the function. Without the names
the arguments are bound to no other set, and to this one if they mention none that is known in the package. They
are not bound at all without a name that is an argument by itself, which is known in the package. -/
structure Overlooks (names : List String) (package : Package) (reference : Reference) (bound : Arguments)
    (id : InstanceId) : Prop where
  binds : program.Binds registry scope position package reference.arguments bound
  found : registry.find? package.name bound = some id
  unique : ∀ other, program.Binds registry scope position package
    (Expr.listObscure names reference.arguments) other → other = bound
  unread : (∀ name ∈ names, program.Known registry scope position name →
      Expr.listMentions [name] reference.arguments = false) →
    program.Binds registry scope position package (Expr.listObscure names reference.arguments) bound
  read : ∀ name ∈ names, .ident name ∈ reference.arguments → program.Known registry scope position name ∧
    ∀ other, ¬ program.Binds registry scope position package (Expr.listObscure names reference.arguments) other

variable (program registry scope position) in
def OverlooksLocals (item lowered : PackageItem) : Prop :=
  ∀ address names reference package, Outside address.path →
    item.at? address = some ⟨names, .ofReference reference⟩ →
    program.generic? reference.package = some package →
    Expr.listMentions names reference.arguments = true →
    ∃ bound id, program.Overlooks registry scope position names package reference bound id ∧
      lowered.at? address = some ⟨names, .ofReference (reference.redirect ⟨package.name, id⟩)⟩

variable (program registry scope position) in
def HeedsLocals (item lowered : PackageItem) : Prop :=
  ∀ address names reference package target, Outside address.path →
    item.at? address = some ⟨names, .ofReference reference⟩ →
    program.generic? reference.package = some package →
    Expr.listMentions names reference.arguments = true →
    lowered.at? address = some ⟨names, .ofReference (reference.redirect target)⟩ →
    ∃ bound, program.Binds registry scope position package (Expr.listObscure names reference.arguments) bound

theorem Binds.overlooks {package : Package} {reference : Reference} {bound : Arguments} {id : InstanceId}
    (binds : program.Binds registry scope position package reference.arguments bound)
    (found : registry.find? package.name bound = some id) (names : List String) :
    program.Overlooks registry scope position names package reference bound id := by
  refine ⟨binds, found, fun other without => ?_, fun unread => ?_, fun name hidden argument => ⟨?_, ?_⟩⟩
  · obtain ⟨evaluator, values, made, evaluated, accepted⟩ := without
    exact Binds.unique ⟨evaluator, values, made, evaluated.of_obscure, accepted⟩ binds
  · obtain ⟨evaluator, values, made, evaluated, accepted⟩ := binds
    exact ⟨evaluator, values, made, evaluated.obscure made unread, accepted⟩
  · obtain ⟨evaluator, values, made, evaluated, _⟩ := binds
    obtain ⟨value, denotes⟩ := evaluated.exists_of_mem argument
    exact ⟨evaluator, value, made, denotes⟩
  · rintro other ⟨evaluator, values, _, evaluated, _⟩
    obtain ⟨value, denotes⟩ := evaluated.exists_of_mem (Expr.obscure_mem_listObscure argument)
    rw [Expr.obscure, if_pos (List.contains_iff_mem.mpr hidden)] at denotes
    cases denotes

theorem overlooksLocals_of_rewrites {rewriting : Rewriting} {item lowered : PackageItem}
    (rewrites : item.Rewrites rewriting [] lowered)
    (sparing : ∀ hidden expr, rewriting.folds hidden expr = true → expr.mentions hidden = false)
    (directed : rewriting.reference = program.Directs registry scope position) :
    program.OverlooksLocals registry scope position item lowered := by
  intro address names reference package outside found generic mentioned
  obtain ⟨part, there, part_rewrites⟩ := rewrites.at? sparing outside found mentioned
  obtain ⟨target, rfl, leads⟩ : ∃ target, part = .ofReference target ∧ rewriting.reference reference target := by
    cases part_rewrites with
    | reference leads => exact ⟨_, rfl, leads⟩
  rw [directed] at leads
  obtain ⟨id, bound, binds, known, _, rfl⟩ := leads.generic generic
  rw [← name_of_generic? generic] at known there
  exact ⟨bound, id, binds.overlooks known names, there⟩

theorem ItemSpecializes.overlooksLocals {context : Context} {item lowered : PackageItem}
    (unhidden : context.hidden = []) (specializes : program.ItemSpecializes registry context item lowered) :
    program.OverlooksLocals registry context.scope context.position item lowered := by
  cases specializes with
  | const denotes type =>
    intro address names reference package _ found _ mentioned
    rw [PackageItem.bound_eq_nil_of_const found, Expr.listMentions_nil] at mentioned
    cases mentioned
  | item notConst rewrites =>
    rw [unhidden] at rewrites
    exact overlooksLocals_of_rewrites rewrites folds_spares rfl

end Program

namespace SourceUnit

theorem overlooksLocals_of_mem_packages {unit : SourceUnit} {settings : Settings} {package : SpecializedPackage}
    (member : package ∈ (unit.instantiate settings).packages) : ∃ source,
      (Program.ofUnit unit settings).generic? package.target.base = some source ∧
      List.Forall₂ (fun entry lowered => (Program.ofUnit unit settings).OverlooksLocals (unit.finalRegistry settings)
          (.instantiated package.target) entry.2 entry.1 lowered)
        source.items.zipIdx package.items := by
  obtain ⟨source, evaluator, generic, made, items⟩ := (specializes_of_mem_packages member).body
  exact ⟨source, generic, items.imp fun entry lowered specializes => specializes.overlooksLocals rfl⟩

/-- In every emitted package and, when the pass succeeds, in every plain package, the arguments of references in
functions are bound without regard to the parameters and locals of the function. -/
theorem overlooksLocals_of_instantiate (unit : SourceUnit) (settings : Settings) :
    (∀ package ∈ (unit.instantiate settings).packages, ∃ source,
      (Program.ofUnit unit settings).generic? package.target.base = some source ∧
      List.Forall₂ (fun entry lowered => (Program.ofUnit unit settings).OverlooksLocals (unit.finalRegistry settings)
          (.instantiated package.target) entry.2 entry.1 lowered)
        source.items.zipIdx package.items) ∧
    ∀ result, unit.instantiate settings = .success result →
      List.Forall₂ (fun description lowered => ∀ plain, description = .package plain →
          ∃ items, lowered = .package { plain with items := items } ∧
            List.Forall₂ (fun entry lowered => (Program.ofUnit unit settings).OverlooksLocals result.registry
                (.package plain.name) (Program.visible plain.items.length entry.2 entry.1.const?) entry.1 lowered)
              plain.items.zipIdx items)
        (unit.descriptions.filter (!·.isGeneric)) result.descriptions := by
  refine ⟨fun package member => overlooksLocals_of_mem_packages member, fun result success => ?_⟩
  refine ((succeeds_of_instantiate success).lowered _ (.refl _)).imp fun description lowered lowers => ?_
  rintro plain rfl
  cases lowers with
  | package items =>
    refine ⟨_, rfl, items.imp fun entry lowered rewrites => ?_⟩
    refine Program.overlooksLocals_of_rewrites rewrites (fun hidden expr folds => ?_) rfl
    cases folds

end SourceUnit

def queuePackage : Package :=
  ⟨"Queue", [⟨"M", .const, nowhere⟩], [.const ⟨"Depth", none, .ident "M", nowhere⟩], nowhere⟩

def depthReference : Reference := ⟨"Queue", [.ident "N"], ["Depth"], nowhere⟩

def depthFunction : PackageItem :=
  .function ⟨"depth", [⟨"N", .logic (some (.int 8))⟩], none, [.returns (.ofReference depthReference)]⟩

def cellPackage : Package :=
  ⟨"Cell", [⟨"N", .const, nowhere⟩], [.const ⟨"Width", none, .ident "N", nowhere⟩, depthFunction], nowhere⟩

def storePackage : Package :=
  ⟨"Store", [], [.const ⟨"N", none, .int 3, nowhere⟩, depthFunction], nowhere⟩

/-- The function hides a parameter in one package, and a constant in the other. -/
def cellUnit : SourceUnit :=
  ⟨"cell", [.package queuePackage, .package cellPackage, .package storePackage,
    .module ⟨"Top", [.const ⟨"C", none, .reference "Cell" [.int 5] ["Width"] nowhere, nowhere⟩], nowhere⟩]⟩

theorem emitted_cellUnit : (cellUnit.run? {} 20).map (fun result => result.2.specialized.map (·.target.base))
    = some ["Queue", "Queue", "Cell"] := by
  decide +kernel

theorem overlooksLocals_cellUnit :
    (∃ package ∈ (cellUnit.instantiate {}).packages, ∃ item ∈ package.items, ∃ bound id,
      (Program.ofUnit cellUnit {}).Overlooks (cellUnit.finalRegistry {}) (.instantiated package.target) 1 ["N"]
        queuePackage depthReference bound id ∧
      item.at? ⟨1, []⟩ = some ⟨["N"], .ofReference (depthReference.redirect ⟨"Queue", id⟩)⟩) ∧
    ∃ result, cellUnit.instantiate {} = .success result ∧ ∃ items,
      .package { storePackage with items := items } ∈ result.descriptions ∧ ∃ item ∈ items, ∃ bound id,
        (Program.ofUnit cellUnit {}).Overlooks result.registry (.package "Store") 2 ["N"]
          queuePackage depthReference bound id ∧
        item.at? ⟨1, []⟩ = some ⟨["N"], .ofReference (depthReference.redirect ⟨"Queue", id⟩)⟩ := by
  obtain ⟨inPackages, inDescriptions⟩ := cellUnit.overlooksLocals_of_instantiate {}
  constructor
  · obtain ⟨package, member, base⟩ := SourceUnit.exists_mem_packages emitted_cellUnit
      (List.mem_cons_of_mem _ (List.mem_cons_of_mem _ List.mem_cons_self))
    obtain ⟨source, generic, items⟩ := inPackages package member
    rw [base] at generic
    cases generic
    have place : cellPackage.items.zipIdx[1]? = some (depthFunction, 1) := rfl
    obtain ⟨item, there, overlooks⟩ := exists_getElem?_of_forall₂ items place
    exact ⟨package, member, item, List.mem_of_getElem? there, overlooks ⟨1, []⟩ _ _ _ Outside.nil rfl rfl rfl⟩
  · have clean : (cellUnit.run? {} 20).map (·.2.faults.isEmpty) = some true := by decide +kernel
    obtain ⟨result, success⟩ := SourceUnit.exists_success clean
    have place : (cellUnit.descriptions.filter (!·.isGeneric))[0]? = some (.package storePackage) := rfl
    obtain ⟨lowered, there, overlooks⟩ := exists_getElem?_of_forall₂ (inDescriptions result success) place
    obtain ⟨items, rfl, body⟩ := overlooks storePackage rfl
    have place : storePackage.items.zipIdx[1]? = some (depthFunction, 1) := rfl
    obtain ⟨item, here, overlooks⟩ := exists_getElem?_of_forall₂ body place
    exact ⟨result, success, items, List.mem_of_getElem? there, item, List.mem_of_getElem? here,
      overlooks ⟨1, []⟩ _ _ _ Outside.nil rfl rfl rfl⟩

/-- The argument of the reference has no value without the parameter of the function. -/
theorem not_heedsLocals_cellUnit : ¬ ∀ package ∈ (cellUnit.instantiate {}).packages, ∀ source,
    (Program.ofUnit cellUnit {}).generic? package.target.base = some source →
    List.Forall₂ (fun entry lowered => (Program.ofUnit cellUnit {}).HeedsLocals (cellUnit.finalRegistry {})
        (.instantiated package.target) entry.2 entry.1 lowered)
      source.items.zipIdx package.items := by
  intro heeds
  obtain ⟨package, member, base⟩ := SourceUnit.exists_mem_packages emitted_cellUnit
    (List.mem_cons_of_mem _ (List.mem_cons_of_mem _ List.mem_cons_self))
  obtain ⟨source, generic, items⟩ := SourceUnit.overlooksLocals_of_mem_packages member
  have heeded := heeds package member source generic
  rw [base] at generic
  cases generic
  have place : cellPackage.items.zipIdx[1]? = some (depthFunction, 1) := rfl
  obtain ⟨item, there, overlooks⟩ := exists_getElem?_of_forall₂ items place
  obtain ⟨item', there', heeds⟩ := exists_getElem?_of_forall₂ heeded place
  cases there.symm.trans there'
  obtain ⟨bound, id, _, directed⟩ := overlooks ⟨1, []⟩ ["N"] depthReference queuePackage Outside.nil rfl rfl rfl
  obtain ⟨bound, evaluator, values, _, evaluated, _⟩ :=
    heeds ⟨1, []⟩ ["N"] depthReference queuePackage ⟨"Queue", id⟩ Outside.nil rfl rfl rfl directed
  cases evaluated with
  | cons first rest => cases first

end Monomorph
