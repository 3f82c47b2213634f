import RecipeEngine.Decode.Tagged
import RecipeEngine.Recipe.Basic

/-!
# Recipes as JSON

Some members and tags have a second, older name that is read but not written.  An instruction whose
tag is not known is read as unsupported, whatever else it holds.
-/

namespace RecipeEngine

open Decode

/-! ## Writing -/

def Step.members (s : Step) : List (String × Json) :=
  [("name", .string s.name), ("functionKey", .string s.functionKey),
   ("repeatCount", .ofCount s.repeatCount)]

def Step.toJson (s : Step) : Json := .object s.members

def taggedMembers (tag : String) (members : List (String × Json)) : List (String × Json) :=
  (Tagged.tagName, .string tag) :: members

namespace Instruction

def toJson : Instruction → Json
  | .step s => .object (taggedMembers "step" s.members)
  | .loopStart identifier iterations =>
      .object (taggedMembers "loopStart"
        [("identifier", .string identifier), ("iterations", .ofCount iterations)])
  | .loopEnd identifier => .object (taggedMembers "loopEnd" [("identifier", .string identifier)])
  | .unsupported => .object (taggedMembers "unsupported" [])

end Instruction

def Program.toJson (p : Program) : Json := .array (p.map Instruction.toJson)

/-! ## Reading -/

def textMember (name : String) (aliases : List String) : Member String :=
  { name := name, aliases := aliases, decode := decodeText, absent := none, unfilled := none }

def countMember (name : String) (aliases : List String) : Member UInt32 :=
  { name := name, aliases := aliases, decode := decodeCount, absent := some 1, unfilled := some 1 }

def Step.record : Record (String × String × UInt32 × Unit) :=
  .cons (textMember "name" [])
    (.cons (textMember "functionKey" ["funcKey"])
      (.cons (countMember "repeatCount" ["opIterations"]) .nil))

def Step.title : String := "struct Step"

def Step.ofParts : String × String × UInt32 × Unit → Step
  | (name, functionKey, repeatCount, ()) => ⟨name, functionKey, repeatCount⟩

namespace Instruction

def loopStartRecord : Record (String × UInt32 × Unit) :=
  .cons (textMember "identifier" []) (.cons (countMember "iterations" ["loopIterations"]) .nil)

def loopEndRecord : Record (String × Unit) := .cons (textMember "identifier" []) .nil

def tagged : Tagged Instruction where
  title := "Instruction"
  variants :=
    [{ names := ["process", "step"]
       decode := fun content =>
        (Step.record.ofContent Step.title content).map fun parts => .step (Step.ofParts parts) },
     { names := ["loopStart"]
       decode := fun content =>
        (loopStartRecord.ofContent "struct variant Instruction::LoopStart" content).map
          fun (identifier, iterations, ()) => .loopStart identifier iterations },
     { names := ["loopEnd"]
       decode := fun content =>
        (loopEndRecord.ofContent "struct variant Instruction::LoopEnd" content).map
          fun (identifier, ()) => .loopEnd identifier }]
  otherwise := some (decodeBare .unsupported)

end Instruction

def Program.decode (style : Tagged.TagStyle) : Decoder Program :=
  decodeItems (Instruction.tagged.decode style)

def Program.read (budget levels : Nat) : Reader Program :=
  readByKind budget
    (Tagged.nested levels fun levels =>
      readArray (readItems (Instruction.tagged.read budget levels) budget true))
    (fun cs => failShape (.wrongKind .object "a sequence") cs)
    (fun j => wrongKind j "a sequence")

/-! ## Whole texts and values -/

def Instruction.ofText (text : String) : Except Failure Instruction :=
  fromText (fun budget => tagged.read budget maxNesting) text

def Step.ofText (text : String) : Except Failure Step :=
  (fromText (record.readDirectly title) text).map ofParts

def Program.ofText (text : String) : Except Failure Program :=
  fromText (fun budget => Program.read budget maxNesting) text

def Program.ofJson (j : Json) : Except Failure Program :=
  (Program.decode .name j.canonical).mapError .ofShape

end RecipeEngine
