import RecipeEngine.Recipe.Basic

/-!
# Matching loop markers

A loop ends where the starts and ends with its identifier, counted from its start on, balance.
Markers with other identifiers do not count.
-/

namespace RecipeEngine.Program

/-- Goes on counting from `position`, where `balance` loops with the identifier are open. -/
def findEndFrom (identifier : String) (position balance : Nat) : Program → Option Nat
  | [] => none
  | i :: rest =>
      match i with
      | .loopStart id _ =>
          findEndFrom identifier (position + 1) (if id = identifier then balance + 1 else balance)
            rest
      | .loopEnd id =>
          if id = identifier then
            if balance - 1 = 0 then some position
            else findEndFrom identifier (position + 1) (balance - 1) rest
          else findEndFrom identifier (position + 1) balance rest
      | _ => findEndFrom identifier (position + 1) balance rest

/-- The position of the end of the loop that starts at `start` with the given identifier. -/
def findLoopEnd (p : Program) (start : Nat) (identifier : String) : Option Nat :=
  findEndFrom identifier start 0 (p.drop start)

example :
    findLoopEnd [.loopStart "a" 1, .loopStart "a" 2, .loopEnd "a", .loopEnd "b", .loopEnd "a"] 0
      "a" = some 4 := by decide

end RecipeEngine.Program
