import RecipeEngine.Recipe.Basic

/-!
# Why a run fails
-/

namespace RecipeEngine

inductive ExecutionError where
  | registryNotReady
  | unknownFunction (step key : String)
  /-- A function refused a value, in one of the repetitions of a step. -/
  | operationFailed (step : String) (iteration total : Nat) (detail : String)
  | unmatchedLoop (identifier : String) (position : Nat)
  /-- The body of a loop holds another loop marker. -/
  | nestedLoop (identifier : String)
  /-- The body of a loop holds something other than a step. -/
  | invalidLoopBody (identifier : String)
  /-- A loop end is reached that no loop start leads past. -/
  | orphanLoopEnd (identifier : String) (position : Nat)
  | unsupportedInstruction (position : Nat)
  | loopIteration (identifier : String) (iteration total : Nat) (source : ExecutionError)
  deriving DecidableEq

namespace ExecutionError

def message : ExecutionError → String
  | .registryNotReady => "Function registry is not ready"
  | .unknownFunction step key => "Operation '" ++ step ++ "' (" ++ key ++ ") is not available"
  | .operationFailed step iteration total detail =>
      "Error in " ++ step ++ " (iter " ++ toString iteration ++ "/" ++ toString total ++ "): " ++
        detail
  | .unmatchedLoop identifier position =>
      "Mismatched loop: no valid loop end for '" ++ identifier ++ "' at position " ++
        toString position
  | .nestedLoop identifier =>
      "Nested loops are not supported (inside loop '" ++ identifier ++ "')"
  | .invalidLoopBody identifier => "Invalid instruction in body of loop '" ++ identifier ++ "'"
  | .orphanLoopEnd identifier position =>
      "Orphaned loop end '" ++ identifier ++ "' at position " ++ toString position
  | .unsupportedInstruction position =>
      "Unsupported instruction at position " ++ toString position
  | .loopIteration identifier iteration total source =>
      "Loop '" ++ identifier ++ "' iteration " ++ toString iteration ++ "/" ++ toString total ++
        ": " ++ source.message

/-- The failure itself, without the loop iterations around it. -/
def root : ExecutionError → ExecutionError
  | .loopIteration _ _ _ source => source.root
  | e => e

def source? : ExecutionError → Option ExecutionError
  | .loopIteration _ _ _ source => some source
  | _ => none

end ExecutionError

end RecipeEngine
