import RecipeEngine.Recipe.Codec

/-!
# Events of the worker

An update of progress without an identifier and with zero totals hides the progress again: it is
the *reset* that closes every run.  A run has exactly one *terminal* event.
-/

namespace RecipeEngine

open Decode

inductive Event where
  | ready (keys : List String)
  | bringUpFailed (reason : String)
  /-- A run was refused because the worker is not ready. -/
  | notReady (message : String)
  /-- A loop has come to an iteration. -/
  | progress (identifier : Option String) (current total : UInt32)
  | finalResult (value : Json)
  | executionFailed (message : String)
  /-- How long a run took, in milliseconds. -/
  | timing (elapsed : Number.Binary64)
  | diagnostic (message : String)
  deriving DecidableEq

namespace Event

def reset : Event := .progress none 0 0

def isTerminal : Event → Bool
  | .finalResult _ => true
  | .executionFailed _ => true
  | _ => false

def isReset (e : Event) : Bool := e == reset

def isDiagnostic : Event → Bool
  | .diagnostic _ => true
  | _ => false

/-! ## Writing -/

/-- The tag of an event and its members after the tag, in order. -/
def parts : Event → String × List (String × Json)
  | .ready keys => ("initialized", [("availableFunctionKeys", .ofTexts keys)])
  | .bringUpFailed reason => ("initializationFailed", [("reason", .string reason)])
  | .notReady message => ("notReady", [("message", .string message)])
  | .progress identifier current total =>
      ("progressUpdate",
        [("identifier", .ofTextOrNull identifier), ("currentIteration", .ofCount current),
         ("totalIterations", .ofCount total)])
  | .finalResult value => ("finalResult", [("value", value)])
  | .executionFailed message => ("executionFailed", [("message", .string message)])
  | .timing elapsed => ("timingReport", [("elapsedMs", .number (.floating elapsed))])
  | .diagnostic message => ("diagnostic", [("message", .string message)])

def members (e : Event) : List (String × Json) := taggedMembers e.parts.1 e.parts.2

def toJson (e : Event) : Json := .object e.members

/-! ## Reading -/

def requiredMember {α : Type} (name : String) (decode : Decoder α) : Member α :=
  { name := name, aliases := [], decode := decode, absent := none, unfilled := none }

/-- A string or null; where it is not given it is null, but an array must go that far. -/
def nullableMember (name : String) : Member (Option String) where
  name := name
  aliases := []
  decode := decodeOptional decodeText
  absent := some none
  unfilled := none

def variant {α : Type} (tag name : String) (record : Record α) (make : α → Event) :
    Variant Event where
  names := [tag]
  decode := fun content =>
    (record.ofContent ("struct variant WorkerEvent::" ++ name) content).map make

def tagged : Tagged Event where
  title := "WorkerEvent"
  variants :=
    [variant "initialized" "Initialized"
      (.cons (requiredMember "availableFunctionKeys" (decodeItems decodeText)) .nil)
      fun (keys, ()) => .ready keys,
     variant "initializationFailed" "InitializationFailed"
      (.cons (textMember "reason" []) .nil)
      fun (reason, ()) => .bringUpFailed reason,
     variant "notReady" "NotReady"
      (.cons (textMember "message" []) .nil)
      fun (message, ()) => .notReady message,
     variant "progressUpdate" "ProgressUpdate"
      (.cons (nullableMember "identifier")
        (.cons (requiredMember "currentIteration" decodeCount)
          (.cons (requiredMember "totalIterations" decodeCount) .nil)))
      fun (identifier, current, total, ()) => .progress identifier current total,
     variant "finalResult" "FinalResult"
      (.cons (requiredMember "value" decodeAny) .nil)
      fun (value, ()) => .finalResult value,
     variant "executionFailed" "ExecutionFailed"
      (.cons (textMember "message" []) .nil)
      fun (message, ()) => .executionFailed message,
     variant "timingReport" "TimingReport"
      (.cons (requiredMember "elapsedMs" decodeFloating) .nil)
      fun (elapsed, ()) => .timing elapsed,
     variant "diagnostic" "Diagnostic"
      (.cons (textMember "message" []) .nil)
      fun (message, ()) => .diagnostic message]
  otherwise := none

def ofText (text : String) : Except Failure Event :=
  fromText (fun budget => tagged.read budget maxNesting) text

end Event

end RecipeEngine
