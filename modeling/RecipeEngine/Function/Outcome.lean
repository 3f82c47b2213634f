import RecipeEngine.Decode.Record
import RecipeEngine.Recipe.Codec

/-!
# Functions and what they give

A function gives a new value, refuses with a structured failure, or breaks down without giving
anything back; what it says then is all that is known.
-/

namespace RecipeEngine

open Decode

structure FunctionFailure where
  error : String
  deriving DecidableEq

inductive Outcome where
  | value (v : Json)
  | failure (f : FunctionFailure)
  | breakdown (words : String)
  deriving DecidableEq

abbrev Function := Json → Outcome

namespace FunctionFailure

def errorName : String := "error"

def toJson (f : FunctionFailure) : Json := .object [(errorName, .string f.error)]

def record : Record (String × Unit) := .cons (textMember errorName []) .nil

def ofText (text : String) : Except Failure FunctionFailure :=
  (fromText (record.readDirectly "struct TransformFailure") text).map fun (error, ()) => ⟨error⟩

end FunctionFailure

/-- What a raw value means: an object with a string member `error` is a failure, anything else is
a value. -/
def classify (raw : Json) : Outcome :=
  match (raw.member? FunctionFailure.errorName).bind Json.text? with
  | some error => .failure ⟨error⟩
  | none => .value raw

def Function.ofRaw (f : Json → Json) : Function := fun v => classify (f v)

end RecipeEngine
