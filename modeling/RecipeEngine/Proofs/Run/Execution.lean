import RecipeEngine.Run.Execution

/-!
# Calculating with executions

What an execution does apart from remarks is its *observed* trace.  All that can be seen of an
execution is what its first part does and, if that part comes to an end, what its second part does.
-/

namespace RecipeEngine

def Action.isRemark : Action → Bool
  | .apply _ _ => false
  | .send e => e.isDiagnostic

namespace Execution

variable {α β : Type}

/-- The functions that were applied and the events that were sent, in order, remarks apart. -/
def observed (x : Execution α) : List Action := x.trace.filter fun action => !action.isRemark

@[simp] theorem fail_bind (e : ExecutionError) (f : α → Execution β) : fail e >>= f = fail e :=
  rfl

/-! ## Two parts of an execution -/

theorem bind_of_ok {x : Execution α} {f : α → Execution β} {a : α} (ends : x.result = .ok a) :
    (x >>= f).trace = x.trace ++ (f a).trace ∧ (x >>= f).result = (f a).result := by
  rw [trace_bind, result_bind, ends]
  exact ⟨rfl, rfl⟩

theorem bind_of_error {x : Execution α} {f : α → Execution β} {reason : Halt}
    (halts : x.result = .error reason) :
    (x >>= f).trace = x.trace ∧ (x >>= f).result = .error reason := by
  rw [trace_bind, result_bind, halts]
  exact ⟨List.append_nil _, rfl⟩

/-- Only with the value that the first part ends with does the second part matter. -/
theorem bind_congr_of_ok {x : Execution α} {f g : α → Execution β}
    (same : ∀ a, x.result = .ok a → f a = g a) : x >>= f = x >>= g := by
  apply ext
  · rw [trace_bind, trace_bind]
    cases ends : x.result with
    | ok a => exact congrArg (fun y => x.trace ++ y.trace) (same a ends)
    | error reason => rfl
  · rw [result_bind, result_bind]
    cases ends : x.result with
    | ok a => exact congrArg result (same a ends)
    | error reason => rfl

theorem bind_eq_self {x : Execution α} {f : α → Execution α}
    (idle : ∀ a, x.result = .ok a → f a = pure a) : x >>= f = x :=
  (bind_congr_of_ok idle).trans (bind_pure x)

/-- What follows an execution that halts does not matter. -/
theorem bind_eq_self_of_error {x : Execution α} {reason : Halt} (halts : x.result = .error reason)
    (f : α → Execution α) : x >>= f = x := by
  apply bind_eq_self
  intro a ends
  rw [halts] at ends
  cases ends

theorem prefix_trace_bind {x : Execution α} {f g : α → Execution β}
    (shorter : ∀ a, x.result = .ok a → (f a).trace <+: (g a).trace) :
    (x >>= f).trace <+: (x >>= g).trace := by
  rw [trace_bind, trace_bind, List.prefix_append_right_inj]
  cases ends : x.result with
  | ok a => exact shorter a ends
  | error reason => exact List.nil_prefix

theorem applications_bind_of_ok {x : Execution α} {f : α → Execution β} {a : α}
    (ends : x.result = .ok a) :
    (x >>= f).applications = x.applications ++ (f a).applications := by
  rw [applications, (bind_of_ok ends).1, List.filterMap_append]
  rfl

theorem applications_bind_of_error {x : Execution α} {f : α → Execution β} {reason : Halt}
    (halts : x.result = .error reason) : (x >>= f).applications = x.applications := by
  rw [applications, (bind_of_error halts).1]
  rfl

theorem observed_bind_of_ok {x : Execution α} {f : α → Execution β} {a : α}
    (ends : x.result = .ok a) : (x >>= f).observed = x.observed ++ (f a).observed := by
  rw [observed, (bind_of_ok ends).1, List.filter_append]
  rfl

theorem observed_bind_of_error {x : Execution α} {f : α → Execution β} {reason : Halt}
    (halts : x.result = .error reason) : (x >>= f).observed = x.observed := by
  rw [observed, (bind_of_error halts).1]
  rfl

theorem result_bind_eq_ok_iff {x : Execution α} {f : α → Execution β} {b : β} :
    (x >>= f).result = .ok b ↔ ∃ a, x.result = .ok a ∧ (f a).result = .ok b := by
  rw [result_bind]
  cases x.result <;> simp [Except.bind]

@[simp] theorem result_remark_bind (message : String) (f : Unit → Execution β) :
    (remark message >>= f).result = (f ()).result := rfl

@[simp] theorem applications_remark_bind (message : String) (f : Unit → Execution β) :
    (remark message >>= f).applications = (f ()).applications := rfl

@[simp] theorem observed_remark_bind (message : String) (f : Unit → Execution β) :
    (remark message >>= f).observed = (f ()).observed := rfl

/-! ## Contexts -/

variable (context : ExecutionError → ExecutionError)

@[simp] theorem inContext_fail (e : ExecutionError) :
    (fail e : Execution α).inContext context = fail (context e) := rfl

@[simp] theorem inContext_pure (a : α) : (pure a : Execution α).inContext context = pure a := rfl

@[simp] theorem inContext_act (action : Action) : (act action).inContext context = act action := rfl

@[simp] theorem inContext_remark (message : String) :
    (remark message).inContext context = remark message := rfl

/-- Both parts of an execution are in the context that the whole is in. -/
theorem inContext_bind (x : Execution α) (f : α → Execution β) :
    (x >>= f).inContext context = x.inContext context >>= fun a => (f a).inContext context := by
  obtain ⟨trace, result⟩ := x
  cases result with
  | ok a =>
    show inContext context ⟨trace ++ (f a).trace, (f a).result⟩ =
      ⟨trace ++ ((f a).inContext context).trace, ((f a).inContext context).result⟩
    obtain ⟨trace', result'⟩ := f a
    cases result' with
    | ok b => rfl
    | error reason => cases reason <;> rfl
  | error reason => cases reason <;> rfl

/-- One context in another. -/
theorem inContext_inContext (context' : ExecutionError → ExecutionError) (x : Execution α) :
    (x.inContext context).inContext context' = x.inContext fun e => context' (context e) := by
  obtain ⟨trace, result⟩ := x
  cases result with
  | ok a => rfl
  | error reason => cases reason <;> rfl

@[simp] theorem trace_inContext (x : Execution α) : (x.inContext context).trace = x.trace := by
  obtain ⟨trace, result⟩ := x
  cases result with
  | ok a => rfl
  | error reason => cases reason <;> rfl

@[simp] theorem applications_inContext (x : Execution α) :
    (x.inContext context).applications = x.applications := by
  rw [applications, applications, trace_inContext]

/-- A context shows in nothing but a failure. -/
theorem inContext_eq_self {x : Execution α}
    (fixed : ∀ e, x.result = .error (.failed e) → context e = e) : x.inContext context = x := by
  obtain ⟨trace, result⟩ := x
  cases result with
  | ok a => rfl
  | error reason =>
    cases reason with
    | failed e => simp only [inContext, fixed e rfl]
    | brokeDown words => rfl

theorem inContext_id (x : Execution α) : x.inContext id = x := inContext_eq_self id fun _ _ => rfl

end Execution

end RecipeEngine
