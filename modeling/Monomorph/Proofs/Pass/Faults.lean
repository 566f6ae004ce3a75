import Monomorph.Pass.Lowering

/-! What faults report.

Two kinds of faults say something about the course of the pass: a chain of constants that
ask for each other, and instances that nest too deep. All others are plain: they are about
the text at one place. A fault that stopped an evaluation is passed on as it is.
-/

set_option autoImplicit false

namespace Monomorph

def Fault.chain? (fault : Fault) : Option (List String) :=
  match fault.cause with
  | .cyclicConstant chain => some chain
  | _ => none

def Stop.chain? : Stop → Option (List String)
  | .evaluation _ => none
  | .fault complete => complete.chain?

def Fault.limit? (fault : Fault) : Option Fault :=
  match fault.cause with
  | .recursionLimit .. => some fault
  | _ => none

def Stop.limit? : Stop → Option Fault
  | .evaluation _ => none
  | .fault complete => complete.limit?

theorem Fault.chain?_eq_some {fault : Fault} {chain : List String} :
    fault.chain? = some chain ↔ fault.cause = .cyclicConstant chain := by
  unfold Fault.chain?
  split
  · rename_i found cause
    rw [cause, Option.some.injEq, Cause.cyclicConstant.injEq]
  · rename_i other
    exact ⟨nofun, fun cause => absurd cause (other chain)⟩

theorem Fault.limit?_eq_some {fault found : Fault} :
    fault.limit? = some found ↔ found = fault ∧ ∃ package limit, fault.cause = .recursionLimit package limit := by
  unfold Fault.limit?
  split
  · rename_i package limit cause
    rw [Option.some.injEq]
    exact ⟨fun same => ⟨same.symm, package, limit, cause⟩, fun both => both.1.symm⟩
  · rename_i other
    exact ⟨nofun, fun ⟨_, package, limit, cause⟩ => absurd cause (other package limit)⟩

theorem Stop.reports_toFault (what : String) (site : Span) (stop : Stop) :
    (stop.toFault what site).chain? = stop.chain? ∧ (stop.toFault what site).limit? = stop.limit? := by
  cases stop with
  | fault complete => exact ⟨rfl, rfl⟩
  | evaluation error => cases error <;> exact ⟨rfl, rfl⟩

structure Fault.Plain (fault : Fault) : Prop where
  chain : fault.chain? = none
  limit : fault.limit? = none

theorem Registry.plain_of_request {registry : Registry} {base : String} {arguments : Arguments} {fault : Fault}
    (refused : registry.request base arguments = .error fault) : fault.Plain := by
  unfold Registry.request at refused
  split at refused
  · cases refused
  · split at refused
    · cases refused
    · cases refused
      exact ⟨rfl, rfl⟩

theorem Registry.plain_of_resolve {registry : Registry} {target : Instance} {fault : Fault}
    (refused : registry.resolve target = .error fault) : fault.Plain := by
  unfold Registry.resolve at refused
  split at refused
  · cases refused
  · cases refused
    exact ⟨rfl, rfl⟩

theorem Program.plain_of_evaluator {program : Program} {registry : Registry} {scope : Scope} {fault : Fault}
    (refused : program.evaluator registry scope = .error fault) : fault.Plain := by
  cases scope with
  | instantiated target =>
    simp only [Program.evaluator] at refused
    split at refused
    · rename_i unresolved
      cases refused
      exact Registry.plain_of_resolve unresolved
    · cases refused
    · cases refused
  | package name => cases refused
  | module name => cases refused

theorem Value.plain_of_coerce {value : Value} {expected : ValueType} {what : String} {site : Span} {fault : Fault}
    (refused : value.coerce expected what site = .error fault) : fault.Plain := by
  unfold Value.coerce at refused
  split at refused
  · cases refused
  · cases refused
    exact ⟨rfl, rfl⟩

theorem GenericParameter.plain_of_accept {parameter : GenericParameter} {earlier : Evaluator} {value : Value}
    {what : String} {site : Span} {fault : Fault}
    (refused : parameter.accept earlier value what site = .error fault) : fault.Plain := by
  unfold GenericParameter.accept at refused
  split at refused
  · cases refused
  · split at refused
    · cases refused
      obtain ⟨chain, limit⟩ := Stop.reports_toFault _ _ _
      exact ⟨chain, limit⟩
    · exact Value.plain_of_coerce refused
    · cases refused

theorem Package.plain_of_checkMember {package : Package} {reference : Reference} {fault : Fault}
    (refused : package.checkMember reference = .error fault) : fault.Plain := by
  unfold Package.checkMember at refused
  split at refused
  · split at refused
    · cases refused
    · cases refused
      exact ⟨rfl, rfl⟩
  · cases refused

theorem plain_of_mem_reservedFaults {name : String} {site : Span} {fault : Fault}
    (member : fault ∈ reservedFaults name site) : fault.Plain := by
  unfold reservedFaults at member
  split at member
  · rw [List.mem_singleton.mp member]
    exact ⟨rfl, rfl⟩
  · cases member

theorem Description.plain_of_mem_innerFaults {description : Description} {fault : Fault}
    (member : fault ∈ description.innerFaults) : fault.Plain := by
  cases description with
  | package decl =>
    rcases List.mem_append.mp member with parameter | item
    · obtain ⟨_, _, found⟩ := List.mem_flatMap.mp parameter
      exact plain_of_mem_reservedFaults found
    · obtain ⟨_, _, found⟩ := List.mem_flatMap.mp item
      exact plain_of_mem_reservedFaults found
  | module decl =>
    obtain ⟨_, _, found⟩ := List.mem_flatMap.mp member
    exact plain_of_mem_reservedFaults found

theorem SourceUnit.plain_of_mem_declarationFaults {seen : List String} {descriptions : List Description}
    {fault : Fault} (member : fault ∈ declarationFaults.go seen descriptions) : fault.Plain := by
  induction descriptions generalizing seen with
  | nil => cases member
  | cons first rest ih =>
    rw [declarationFaults.go] at member
    rcases List.mem_append.mp member with reserved | member
    · exact plain_of_mem_reservedFaults reserved
    split at member
    · rcases List.mem_cons.mp member with repeated | later
      · rw [repeated]
        exact ⟨rfl, rfl⟩
      · exact ih later
    · rcases List.mem_append.mp member with inner | later
      · exact Description.plain_of_mem_innerFaults inner
      · exact ih later

end Monomorph
