import Monomorph.Proofs.Constant.WellFormed

/-! Runs of the evaluator.

A run with answers is taken apart step by step, and its errors can be adapted at each
step. A name has the value that it was bound to last.
-/

set_option autoImplicit false

namespace Monomorph

section Steps

variable {ε δ α β : Type}

theorem ExceptT.run_bind_of_ok {operation : ExceptT ε Id α} {value : α}
    (found : operation.run = .ok value) (next : α → ExceptT ε Id β) :
    (operation >>= next).run = (next value).run := by
  show ExceptT.bindCont next operation.run = (next value).run
  rw [found]
  rfl

theorem ExceptT.run_bind_of_error {operation : ExceptT ε Id α} {error : ε}
    (stopped : operation.run = .error error) (next : α → ExceptT ε Id β) :
    (operation >>= next).run = .error error := by
  show ExceptT.bindCont next operation.run = .error error
  rw [stopped]
  rfl

theorem ExceptT.run_bind_eq_ok {operation : ExceptT ε Id α} {next : α → ExceptT ε Id β}
    {result : β} :
    (operation >>= next).run = .ok result ↔
      ∃ value, operation.run = .ok value ∧ (next value).run = .ok result := by
  cases found : operation.run with
  | error error => simp [ExceptT.run_bind_of_error found]
  | ok value =>
    rw [ExceptT.run_bind_of_ok found]
    constructor
    · intro ended
      exact ⟨value, rfl, ended⟩
    · rintro ⟨other, same, ended⟩
      cases same
      exact ended

theorem ExceptT.run_adapt_eq_ok {operation : ExceptT ε Id α} {wrap : ε → δ} {result : α} :
    (operation.adapt wrap).run = .ok result ↔ operation.run = .ok result := by
  show Except.mapError wrap operation.run = .ok result ↔ operation.run = .ok result
  cases operation.run with
  | error error => simp [Except.mapError]
  | ok value =>
    constructor <;>
    · intro same
      cases same
      rfl

theorem ExceptT.run_adapt_of_error {operation : ExceptT ε Id α} {error : ε}
    (stopped : operation.run = .error error) (wrap : ε → δ) :
    (operation.adapt wrap).run = .error (wrap error) := by
  show Except.mapError wrap operation.run = .error (wrap error)
  rw [stopped]
  rfl

theorem Resolver.run_lift_eq_ok {resolver : Resolver ε Id} {result : Except EvalError α}
    {value : α} : (resolver.lift result).run = .ok value ↔ result = .ok value := by
  cases result with
  | error error =>
    show Except.error _ = Except.ok value ↔ _
    simp
  | ok found =>
    constructor <;>
    · intro same
      cases same
      rfl

theorem ExceptT.run_ofExcept_eq_ok {result : Except ε α} {value : α} :
    (MonadExcept.ofExcept result : ExceptT ε Id α).run = .ok value ↔ result = .ok value := by
  cases result with
  | error error =>
    show Except.error _ = Except.ok value ↔ _
    simp
  | ok found =>
    constructor <;>
    · intro same
      cases same
      rfl

theorem ExceptT.adapt_bind {m : Type → Type} [Monad m] [LawfulMonad m]
    (operation : ExceptT ε m α) (next : α → ExceptT ε m β) (wrap : ε → δ) :
    (operation >>= next).adapt wrap = operation.adapt wrap >>= fun value => (next value).adapt wrap := by
  apply ExceptT.ext
  show Except.mapError wrap <$> (operation.run >>= ExceptT.bindCont next)
    = Except.mapError wrap <$> operation.run >>= ExceptT.bindCont fun value => (next value).adapt wrap
  rw [map_bind, bind_map_left]
  apply bind_congr
  intro result
  cases result with
  | ok value => rfl
  | error error => exact map_pure _ _

theorem ExceptT.adapt_pure {m : Type → Type} [Monad m] [LawfulMonad m] (value : α) (wrap : ε → δ) :
    (pure value : ExceptT ε m α).adapt wrap = pure value :=
  ExceptT.ext (map_pure _ _)

theorem Resolver.adapt_fail {m : Type → Type} [Monad m] [LawfulMonad m]
    (resolver : Resolver ε m) (error : EvalError) (wrap : ε → δ) :
    (resolver.fail error : ExceptT ε m α).adapt wrap = throw (wrap (resolver.raise error)) :=
  ExceptT.ext (map_pure _ _)

def Resolver.adapt {m : Type → Type} [Monad m] (resolver : Resolver ε m) (view : ε → δ) : Resolver δ m where
  raise error := view (resolver.raise error)
  ident name := (resolver.ident name).adapt view
  reference target := (resolver.reference target).adapt view

theorem Resolver.lift_adapt {m : Type → Type} [Monad m] [LawfulMonad m] (resolver : Resolver ε m) (view : ε → δ)
    (result : Except EvalError α) : (resolver.adapt view).lift result = (resolver.lift result).adapt view := by
  cases result with
  | ok value => exact (ExceptT.adapt_pure value view).symm
  | error error => exact (resolver.adapt_fail error view).symm

end Steps

namespace Evaluator

variable {ε δ : Type} {m : Type → Type} [Monad m] [LawfulMonad m] (evaluator : Evaluator) (resolver : Resolver ε m)
  (view : ε → δ)

mutual

/-- Evaluation has no errors but those of its resolver, and passes them on as they are. -/
theorem eval_adapt : ∀ expr : Expr,
    evaluator.eval (resolver.adapt view) expr = (evaluator.eval resolver expr).adapt view
  | .literal value => by
    rw [eval, eval, Resolver.lift_adapt]
  | .ident name => by
    rw [eval, eval]
    cases evaluator.bindings.get? name with
    | some value => exact (ExceptT.adapt_pure value view).symm
    | none => rfl
  | .reference package arguments members span => by
    rw [eval, eval]
    rfl
  | .binary op left right => by
    rw [eval, eval]
    simp only [ExceptT.adapt_bind, eval_adapt left, eval_adapt right, Resolver.lift_adapt]
  | .unary op operand => by
    rw [eval, eval]
    simp only [ExceptT.adapt_bind, eval_adapt operand, Resolver.lift_adapt]
  | .call function arguments => by
    rw [eval, eval]
    cases Builtin.find? function with
    | none => exact (resolver.adapt_fail _ view).symm
    | some builtin => simp only [ExceptT.adapt_bind, evalList_adapt arguments, Resolver.lift_adapt]
  | .ternary condition whenTrue whenFalse => by
    rw [eval, eval, ExceptT.adapt_bind, eval_adapt condition]
    apply bind_congr
    intro test
    split
    · exact eval_adapt whenTrue
    · exact eval_adapt whenFalse
  | .field base name => by
    rw [eval, eval]
    exact (resolver.adapt_fail _ view).symm

theorem evalList_adapt : ∀ exprs : List Expr,
    evaluator.evalList (resolver.adapt view) exprs = (evaluator.evalList resolver exprs).adapt view
  | [] => by
    rw [evalList, evalList, ExceptT.adapt_pure]
  | first :: rest => by
    rw [evalList, evalList]
    simp only [ExceptT.adapt_bind, eval_adapt first, evalList_adapt rest, ExceptT.adapt_pure]

end
end Evaluator

namespace Bindings

variable {bindings : Bindings}

theorem get?_cons (pair : String × Value) (bindings : Bindings) (name : String) :
    get? (pair :: bindings) name = if name = pair.1 then some pair.2 else bindings.get? name := by
  obtain ⟨first, value⟩ := pair
  by_cases same : name = first
  · simp [get?, same]
  · simp [get?, List.lookup_cons, beq_false_of_ne same, same]

theorem get?_erase_of_ne {name other : String} (apart : other ≠ name) :
    (bindings.erase name).get? other = bindings.get? other := by
  induction bindings with
  | nil => rfl
  | cons first rest ih =>
    unfold erase at ih ⊢
    by_cases erased : first.1 = name
    · rw [List.filter_cons_of_neg (by simpa using erased), ih, get?_cons, if_neg (erased ▸ apart)]
    · rw [List.filter_cons_of_pos (by simpa using erased), get?_cons, get?_cons, ih]

theorem get?_insert (name other : String) (value : Value) :
    (bindings.insert name value).get? other = if other = name then some value else bindings.get? other := by
  rw [insert, get?_cons]
  by_cases same : other = name
  · rw [if_pos same, if_pos same]
  · rw [if_neg same, if_neg same, get?_erase_of_ne same]

theorem isSome_get?_insertAll {name : String} {pairs : List (String × Value)}
    (known : (bindings.get? name).isSome ∨ name ∈ pairs.map (·.1)) :
    ((bindings.insertAll pairs).get? name).isSome := by
  induction pairs generalizing bindings with
  | nil => exact known.resolve_right List.not_mem_nil
  | cons first rest ih =>
    apply ih
    rw [get?_insert]
    by_cases same : name = first.1
    · exact .inl (by rw [if_pos same]; rfl)
    · rw [if_neg same]
      exact known.imp_right fun member => (List.mem_cons.mp member).resolve_left same

theorem get?_insertAll_filter {hidden : List String} {name : String} {kept bindings : Bindings}
    (pairs : List (String × Value)) (start : kept.get? name = if name ∈ hidden then none else bindings.get? name) :
    (kept.insertAll (pairs.filter (·.1 ∉ hidden))).get? name
      = if name ∈ hidden then none else (bindings.insertAll pairs).get? name := by
  induction pairs generalizing kept bindings with
  | nil => exact start
  | cons first rest ih =>
    by_cases left : first.1 ∈ hidden
    · rw [List.filter_cons_of_neg (by simpa using left)]
      apply ih
      rw [start, get?_insert]
      by_cases same : name = first.1
      · rw [same, if_pos left, if_pos left]
      · rw [if_neg same]
    · rw [List.filter_cons_of_pos (by simpa using left)]
      apply ih
      rw [get?_insert, get?_insert, start]
      by_cases same : name = first.1
      · rw [same, if_pos rfl, if_neg left, if_pos rfl]
      · rw [if_neg same, if_neg same]

end Bindings

structure Resolver.WellFormed {ε : Type} (resolver : Resolver ε Id) : Prop where
  ident : ∀ name value, (resolver.ident name).run = .ok value → value.WellFormed
  reference : ∀ reference value, (resolver.reference reference).run = .ok value → value.WellFormed

end Monomorph
