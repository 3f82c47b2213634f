import RecipeEngine.Worker.Basic
import RecipeEngine.Worker.Inbox

/-!
# The host's handle on a worker

Messages wait in an inbox.  When the worker is left to itself it handles all that waits; if it
breaks down on the way, the rest is lost and the inbox is closed for ever.
-/

namespace RecipeEngine

structure Handle where
  worker : Worker
  waiting : List HostMessage
  /-- What the worker has sent in answer to each message that it has handled. -/
  blocks : List (List TaggedEvent)
  isClosed : Bool

namespace Handle

def start (w : Worker) (capacity : Nat) : Except InboxError Handle := do
  checkInbox capacity
  return ⟨w, [], [], false⟩

def send (h : Handle) (message : HostMessage) : Except SendError Handle :=
  if h.isClosed then .error .closed else .ok { h with waiting := h.waiting ++ [message] }

/-- Lets the worker handle everything that waits, each message measured as `measure` says for its
place among all that the worker has handled. -/
def settle (measure : Nat → Measurement) (h : Handle) : Handle :=
  let served := h.worker.serve measure h.waiting h.blocks.length
  { worker := served.worker
    waiting := []
    blocks := h.blocks ++ served.blocks
    isClosed := h.isClosed || served.breakdown.isSome }

def events (h : Handle) : List TaggedEvent := h.blocks.flatten

end Handle

end RecipeEngine
