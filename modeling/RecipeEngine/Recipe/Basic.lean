/-!
# Recipes

A step applies a named function to the current value, a number of times in a row; a loop start and
a loop end with one identifier enclose steps that are repeated.  A count of zero means one.
-/

namespace RecipeEngine

/-- How often something is done that was asked for `count` times: at least once. -/
def times (count : UInt32) : Nat := max 1 count.toNat

structure Step where
  name : String
  functionKey : String
  repeatCount : UInt32
  deriving DecidableEq

def Step.repetitions (s : Step) : Nat := times s.repeatCount

inductive Instruction where
  | step (s : Step)
  | loopStart (identifier : String) (iterations : UInt32)
  | loopEnd (identifier : String)
  | unsupported
  deriving DecidableEq

abbrev Program := List Instruction

namespace Instruction

def isLoopMarker : Instruction → Bool
  | .loopStart _ _ => true
  | .loopEnd _ => true
  | _ => false

def label : Instruction → String
  | .step s => s.name
  | .loopStart identifier iterations =>
      "Loop Start: " ++ identifier ++ " (" ++ toString iterations.toNat ++ "x)"
  | .loopEnd identifier => "Loop End: " ++ identifier
  | .unsupported => "unsupported"

end Instruction

theorem one_le_times (count : UInt32) : 1 ≤ times count := Nat.le_max_left _ _

end RecipeEngine
