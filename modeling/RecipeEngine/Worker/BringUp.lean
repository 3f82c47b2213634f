import RecipeEngine.Function.Module
import RecipeEngine.Number.Duration

/-!
# Bringing up the registry

The worker starts its module and waits a limited time for the registry.
-/

namespace RecipeEngine

inductive InitError where
  | timeout (limit : Duration)
  | moduleFailed (reason : String)
  | moduleExited
  | missingFunctions (found missing : List String)
  deriving DecidableEq

namespace InitError

def ofModuleError : ModuleError → InitError
  | .fatal reason => .moduleFailed reason
  | .exited => .moduleExited

def message : InitError → String
  | .timeout limit =>
      "Timeout waiting for function module readiness after " ++ limit.describe
  | .moduleFailed reason => "Function module failed: " ++ reason
  | .moduleExited => "Function module exited before signaling readiness"
  | .missingFunctions found missing =>
      "Expected functions missing: " ++ Text.quotedList missing ++ " (found: " ++
        Text.quotedList found ++ ")"

end InitError

inductive BringUp where
  | ready (r : Registry)
  | failed (e : InitError)
  | brokeDown (words : String)

/-- Accepts a registry that holds every expected function. -/
def acceptRegistry (expected : List String) (r : Registry) : Except InitError Registry :=
  let (found, missing) := expected.partition r.has
  if missing.isEmpty then .ok r.markReady else .error (.missingFunctions found missing)

def BringUp.ofRegistry (m : FunctionModule) (r : Registry) : BringUp :=
  match m.promise with
  | .breakdown words => .brokeDown words
  | .keys expected =>
      match acceptRegistry expected r with
      | .ok accepted => .ready accepted
      | .error e => .failed e

def BringUp.attempt (m : FunctionModule) (limit : Duration) (start : Nat) : BringUp :=
  match m.start start with
  | .ready r => .ofRegistry m r
  | .failed reason => .failed (.ofModuleError (.fatal reason))
  | .exited => .failed (.ofModuleError .exited)
  | .silent => .failed (.timeout limit)

end RecipeEngine
