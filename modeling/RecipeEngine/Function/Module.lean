import RecipeEngine.Function.Registry

/-!
# Function modules

A function module brings up a registry and says once, through a ready channel, that it is ready or
that it has failed.  A module that stops without saying anything has exited.
-/

namespace RecipeEngine

inductive ModuleError where
  | fatal (reason : String)
  | exited
  deriving DecidableEq

def ModuleError.message : ModuleError → String
  | .fatal reason => "Module failed: " ++ reason
  | .exited => "Module exited before signaling readiness"

/-! ## The ready channel -/

/-- The channel through which a module says, at most once, how its start went. -/
structure ReadyChannel where
  hasListener : Bool
  said : Option (Except ModuleError Registry)

namespace ReadyChannel

def fresh (hasListener : Bool) : ReadyChannel := ⟨hasListener, none⟩

/-- Says how the start went; the answer is whether it was heard. -/
def resolve (c : ReadyChannel) (outcome : Except ModuleError Registry) : Bool × ReadyChannel :=
  if c.hasListener then (true, { c with said := some outcome }) else (false, c)

/-- What is heard once the module's end is gone. -/
def wait (c : ReadyChannel) : Except ModuleError Registry :=
  c.said.getD (.error .exited)

end ReadyChannel

/-! ## Modules -/

inductive StartOutcome where
  | ready (r : Registry)
  | failed (reason : String)
  | exited
  | silent

inductive Promise where
  | keys (expected : List String)
  | breakdown (words : String)
  deriving DecidableEq

structure FunctionModule where
  name : String
  promise : Promise
  /-- How each start goes, counted from zero. -/
  start : Nat → StartOutcome

def FunctionModule.builtin : FunctionModule where
  name := "builtin"
  promise := .keys [Builtin.encodeKey, Builtin.decodeKey]
  start := fun _ => .ready .builtin

end RecipeEngine
