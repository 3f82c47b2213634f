import RecipeEngine.Json.Basic

/-!
# The state of a run
-/

namespace RecipeEngine

structure RunState where
  position : Nat
  value : Json
  deriving DecidableEq

namespace RunState

def start (value : Json) : RunState := ⟨0, value⟩

def advance (s : RunState) : RunState := { s with position := s.position + 1 }

def jump (s : RunState) (position : Nat) : RunState := { s with position := position }

def withValue (s : RunState) (value : Json) : RunState := { s with value := value }

end RunState

end RecipeEngine
