import RecipeEngine.Message.Event

/-!
# Emitters

An emitter puts a correlation id on each event.  One that is not asked for remarks keeps them back.
-/

namespace RecipeEngine

structure TaggedEvent where
  correlation : Option String
  event : Event
  deriving DecidableEq

structure Emitter where
  correlation : Option String
  diagnostics : Bool
  deriving DecidableEq

namespace Emitter

def sends (emitter : Emitter) (e : Event) : Bool := emitter.diagnostics || !e.isDiagnostic

def tag (emitter : Emitter) (e : Event) : TaggedEvent := ⟨emitter.correlation, e⟩

/-- What comes out of a row of events. -/
def sent (emitter : Emitter) (events : List Event) : List TaggedEvent :=
  (events.filter emitter.sends).map emitter.tag

theorem sent_append (emitter : Emitter) (first second : List Event) :
    emitter.sent (first ++ second) = emitter.sent first ++ emitter.sent second := by
  simp [sent]

end Emitter

end RecipeEngine
