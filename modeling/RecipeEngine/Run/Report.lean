import RecipeEngine.Run.Execute
import RecipeEngine.Number.Duration

/-!
# Reporting a run

However a run ends, its events end in the same way: one terminal event, the time that it took, and
the reset that hides its progress.
-/

namespace RecipeEngine

/-- What is known of a run only when it is over. -/
structure Measurement where
  elapsed : Duration
  task : String
  deriving DecidableEq

def abortedMessage (task words : String) : String :=
  "Recipe execution aborted: task " ++ task ++ " panicked with message " ++ Text.quoted words

/-- The events that tell how a run has ended.  Of a breakdown, which may happen anywhere, nothing
more is remarked. -/
def outcomeEvents (m : Measurement) : Except Halt Json → List Event
  | .ok v => [.diagnostic "Recipe processing completed", .finalResult v]
  | .error (.failed e) =>
      [.diagnostic ("Recipe processing failed: " ++ e.message), .executionFailed e.message]
  | .error (.brokeDown words) => [.executionFailed (abortedMessage m.task words)]

def closingEvents (m : Measurement) : List Event := [.timing m.elapsed.milliseconds, .reset]

def runEvents (m : Measurement) (x : Execution Json) : List Event :=
  x.events ++ outcomeEvents m x.result ++ closingEvents m

end RecipeEngine
