/-!
# The inbox of a worker
-/

namespace RecipeEngine

inductive InboxError where
  | noCapacity
  | tooLarge
  deriving DecidableEq

def maxInboxCapacity : Nat := (UInt64.size - 1) / 8

def InboxError.message : InboxError → String
  | .noCapacity => "mpsc bounded channel requires buffer > 0"
  | .tooLarge =>
      "a semaphore may not have more than MAX_PERMITS permits (" ++ toString maxInboxCapacity ++
        ")"

def checkInbox (capacity : Nat) : Except InboxError Unit :=
  if capacity = 0 then .error .noCapacity
  else if maxInboxCapacity < capacity then .error .tooLarge
  else .ok ()

inductive SendError where
  | closed
  deriving DecidableEq

def SendError.message : SendError → String
  | .closed => "Worker has stopped"

end RecipeEngine
