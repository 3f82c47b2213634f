import RecipeEngine.Recipe.Codec

/-!
# Messages from the host

A line that is no message becomes an invalid message, which keeps the correlation id if the line is
a JSON object that carries one.
-/

namespace RecipeEngine

open Decode

structure RunRequest where
  program : Program
  initialValue : Json
  correlation : Option String
  deriving DecidableEq

inductive HostMessage where
  | prepare
  | run (request : RunRequest)
  | invalid (reason : Failure) (correlation : Option String)
  deriving DecidableEq

namespace HostMessage

/-! ## Writing -/

def correlationName : String := "correlationId"

def correlationMembers : Option String → List (String × Json)
  | some id => [(correlationName, .string id)]
  | none => []

inductive EncodeError where
  | invalidMessage
  deriving DecidableEq

def EncodeError.message : EncodeError → String
  | .invalidMessage => "the enum variant HostMessage::Invalid cannot be serialized"

def toJson : HostMessage → Except EncodeError Json
  | .prepare => .ok (.object (taggedMembers "initialize" []))
  | .run request =>
      .ok (.object (taggedMembers "runRecipe"
        ([("program", request.program.toJson), ("initialValue", request.initialValue)] ++
          correlationMembers request.correlation)))
  | .invalid _ _ => .error .invalidMessage

/-! ## Reading -/

def correlationMember : Member (Option String) where
  name := correlationName
  aliases := []
  decode := decodeOptional decodeText
  absent := some none
  unfilled := some none

/-- The program of a request, whose instructions may have their tags by place. -/
def programMember : Member Program where
  name := "program"
  aliases := ["recipe"]
  decode := Program.decode .nameOrPlace
  absent := none
  unfilled := none

def initialValueMember : Member Json where
  name := "initialValue"
  aliases := ["input"]
  decode := decodeAny
  absent := some .null
  unfilled := some .null

def runRecord : Record (Program × Json × Option String × Unit) :=
  .cons programMember (.cons initialValueMember (.cons correlationMember .nil))

def tagged : Tagged HostMessage where
  title := "HostMessage"
  variants :=
    [{ names := ["init", "initialize"]
       decode := decodeBare .prepare },
     { names := ["bakeRecipe", "runRecipe"]
       decode := fun content =>
        (runRecord.ofContent "struct variant HostMessage::RunRecipe" content).map
          fun (program, initialValue, correlation, ()) =>
            .run ⟨program, initialValue, correlation⟩ }]
  otherwise := none

def ofText (text : String) : Except Failure HostMessage :=
  fromText (fun budget => tagged.read budget maxNesting) text

def carriedCorrelation (text : String) : Option String :=
  match valueOfText text with
  | .ok j => (j.member? correlationName).bind Json.text?
  | .error _ => none

def ofLine (line : String) : HostMessage :=
  match ofText line with
  | .ok message => message
  | .error reason => .invalid reason (carriedCorrelation line)

end HostMessage

end RecipeEngine
