import RecipeEngine.Worker.Basic
import RecipeEngine.Worker.Config
import RecipeEngine.Worker.Inbox
import RecipeEngine.Worker.Input

/-!
# The service

The worker with the built-in functions answers every line of its input with a block of events
before it looks at the next one.
-/

namespace RecipeEngine.Service

def worker (c : Config) : Worker := .new .builtin c.initTimeout c.diagnostics

/-- The blocks of events with which a configured service answers its whole input, or why it cannot
start. -/
def respond (c : Config) (measure : Nat → Measurement) (input : List UInt8) :
    Except InboxError (List (List TaggedEvent)) := do
  checkInbox c.commandBuffer
  .ok ((worker c).serve measure (Input.messages input) 0).blocks

def failedStart : UInt32 := 101

end RecipeEngine.Service
