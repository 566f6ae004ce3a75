import Monomorph.Instantiation
import Monomorph.Manifest
import Monomorph.Report
import Monomorph.Proofs.Denotation.Rules
import Monomorph.Proofs.Denotation.Laws
import Monomorph.Proofs.Lowering.Direction
import Monomorph.Proofs.Pass.Consistency
import Monomorph.Proofs.Pass.Ensures
import Monomorph.Proofs.Pass.Evaluation
import Monomorph.Proofs.Pass.Lowering
import Monomorph.Proofs.Pass.Specialization
import Monomorph.Proofs.Pass.Unit
import Monomorph.Proofs.Instance.Name
import Monomorph.Proofs.Result.Constants
import Monomorph.Proofs.Result.Success
import Monomorph.Proofs.Result.References
import Monomorph.Proofs.Denotation.Resolver
import Monomorph.Proofs.Result.Flattened
import Monomorph.Proofs.Result.Emitted
import Monomorph.Proofs.Result.Flattening
import Monomorph.Proofs.Constant.Spelling
import Monomorph.Proofs.Instance.Deduplication
import Monomorph.Proofs.Denotation.Sharing
import Monomorph.Proofs.Result.Sharing
import Monomorph.Proofs.Lowering.Demand
import Monomorph.Proofs.Instance.Listing
import Monomorph.Proofs.Pass.History
import Monomorph.Proofs.Dependency.Uses
import Monomorph.Proofs.Dependency.Traces
import Monomorph.Proofs.Dependency.Introduction
import Monomorph.Proofs.Dependency.Body
import Monomorph.Proofs.Dependency.Chronicle
import Monomorph.Proofs.Dependency.Rest
import Monomorph.Proofs.Result.Completion
import Monomorph.Proofs.Result.Order
import Monomorph.Proofs.Result.Retention
import Monomorph.Proofs.Result.Termination
import Monomorph.Proofs.Instance.Requests
import Monomorph.Proofs.Lowering.Paths
import Monomorph.Proofs.Result.GenericFree
import Monomorph.Proofs.Result.Hygiene
import Monomorph.Proofs.Cycle.Asks
import Monomorph.Proofs.Cycle.Stack
import Monomorph.Proofs.Pass.Agreement
import Monomorph.Proofs.Cycle.Checked
import Monomorph.Proofs.Cycle.Evaluation
import Monomorph.Proofs.Cycle.Lowering
import Monomorph.Proofs.Cycle.Unit
import Monomorph.Proofs.Result.Cycles
import Monomorph.Proofs.Result.Bodies
import Monomorph.Proofs.Locality.Visibility
import Monomorph.Proofs.Locality.Evaluation
import Monomorph.Proofs.Locality.Lowering
import Monomorph.Proofs.Locality.Unit
import Monomorph.Proofs.Result.Insertion
import Monomorph.Proofs.Constant.Evaluation
import Monomorph.Proofs.Constant.Range
import Monomorph.Proofs.Constant.Arithmetic
import Monomorph.Proofs.Constant.Power
import Monomorph.Proofs.Guarded.Evaluator
import Monomorph.Proofs.Guarded.Operators
import Monomorph.Proofs.Guarded.Evaluation
import Monomorph.Proofs.Binding.Typed
import Monomorph.Proofs.Binding.Arguments
import Monomorph.Proofs.Lowering.Substitution
import Monomorph.Proofs.Lowering.Occurrences
import Monomorph.Proofs.Result.Scoping
import Monomorph.Proofs.Result.Shadowing
import Monomorph.Proofs.Binding.Coercion
import Monomorph.Proofs.Lowering.Identity
import Monomorph.Proofs.Result.Plain
import Monomorph.Proofs.Pass.Faults
import Monomorph.Proofs.Lowering.Congruence
import Monomorph.Proofs.Cycle.Walk
import Monomorph.Proofs.Nesting.Activity
import Monomorph.Proofs.Nesting.Invariant
import Monomorph.Proofs.Nesting.Evaluation
import Monomorph.Proofs.Nesting.Unit
import Monomorph.Proofs.Result.Nesting
import Monomorph.Proofs.Result.Frames
import Monomorph.Proofs.Constant.Builtin
import Monomorph.Proofs.Constant.Text
import Monomorph.Proofs.Json.Text
import Monomorph.Proofs.Json.Layout
import Monomorph.Proofs.Json.Reader
import Monomorph.Proofs.Report.Json
import Monomorph.Proofs.Report.Arguments
