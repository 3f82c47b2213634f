import RecipeEngine.Function.Registry
import RecipeEngine.Message.Event
import RecipeEngine.Run.Error

/-!
# Executions and their traces

The trace of an execution lists, in order, which functions were applied to which values and which
events were sent.  Nothing that comes after a halt leaves a trace.
-/

namespace RecipeEngine

inductive Action where
  | apply (key : String) (input : Json)
  | send (event : Event)
  deriving DecidableEq

inductive Halt where
  | failed (e : ExecutionError)
  | brokeDown (words : String)
  deriving DecidableEq

structure Execution (α : Type) where
  trace : List Action
  result : Except Halt α

namespace Execution

variable {α β : Type}

protected def pure (a : α) : Execution α := ⟨[], .ok a⟩

/-- One computation after another; a halt skips the second. -/
protected def bind (x : Execution α) (f : α → Execution β) : Execution β :=
  match x.result with
  | .ok a => ⟨x.trace ++ (f a).trace, (f a).result⟩
  | .error halt => ⟨x.trace, .error halt⟩

instance : Monad Execution where
  pure := Execution.pure
  bind := Execution.bind

def act (action : Action) : Execution Unit := ⟨[action], .ok ()⟩

def send (event : Event) : Execution Unit := act (.send event)

def remark (message : String) : Execution Unit := send (.diagnostic message)

def halt (reason : Halt) : Execution α := ⟨[], .error reason⟩

def fail (e : ExecutionError) : Execution α := halt (.failed e)

def ofExcept : Except ExecutionError α → Execution α
  | .ok a => pure a
  | .error e => fail e

/-- The same computation with its failure, if any, put into a context. -/
def inContext (context : ExecutionError → ExecutionError) (x : Execution α) : Execution α :=
  match x.result with
  | .error (.failed e) => ⟨x.trace, .error (.failed (context e))⟩
  | _ => x

def events (x : Execution α) : List Event :=
  x.trace.filterMap fun
    | .send event => some event
    | .apply _ _ => none

def applications (x : Execution α) : List (String × Json) :=
  x.trace.filterMap fun
    | .send _ => none
    | .apply key input => some (key, input)

/-! ## How executions compose -/

@[simp] theorem trace_pure (a : α) : (pure a : Execution α).trace = [] := rfl

@[simp] theorem result_pure (a : α) : (pure a : Execution α).result = .ok a := rfl

theorem trace_bind (x : Execution α) (f : α → Execution β) :
    (x >>= f).trace =
      x.trace ++ (match x.result with
        | .ok a => (f a).trace
        | .error _ => []) := by
  show (Execution.bind x f).trace = _
  unfold Execution.bind
  split <;> simp_all

theorem result_bind (x : Execution α) (f : α → Execution β) :
    (x >>= f).result = x.result.bind fun a => (f a).result := by
  show (Execution.bind x f).result = _
  unfold Execution.bind
  split <;> simp_all [Except.bind]

theorem ext {x y : Execution α} (trace : x.trace = y.trace) (result : x.result = y.result) :
    x = y := by
  cases x; cases y; simp_all

theorem id_map_execution (x : Execution α) : id <$> x = x := by
  show Execution.bind x _ = x
  obtain ⟨trace, result⟩ := x
  cases result <;> simp [Execution.bind, Function.comp, Execution.pure]

theorem pure_bind_execution (a : α) (f : α → Execution β) : pure a >>= f = f a := by
  show Execution.bind (Execution.pure a) f = f a
  simp [Execution.bind, Execution.pure]

theorem bind_assoc_execution {γ : Type} (x : Execution α) (f : α → Execution β)
    (g : β → Execution γ) : x >>= f >>= g = x >>= fun a => f a >>= g := by
  show Execution.bind (Execution.bind x f) g = Execution.bind x fun a => Execution.bind (f a) g
  obtain ⟨trace, result⟩ := x
  cases result with
  | error halt => rfl
  | ok a =>
    simp only [Execution.bind]
    cases (f a).result <;> simp

instance : LawfulMonad Execution :=
  LawfulMonad.mk' Execution id_map_execution pure_bind_execution bind_assoc_execution

end Execution

end RecipeEngine
