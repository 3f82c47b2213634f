import RecipeEngine.Message.Emitter

/-!
# The event channel

Many emitters put events in and one stream takes them out in the same order.  When the stream is
gone events are lost; when all emitters are gone the stream ends after what is queued.
-/

namespace RecipeEngine

structure Channel where
  emitters : List Emitter
  queue : List TaggedEvent
  hasStream : Bool
  deriving DecidableEq

inductive Poll where
  | event (e : TaggedEvent)
  | pending
  | ended
  deriving DecidableEq

namespace Channel

def create (diagnostics : Bool) : Channel := ⟨[⟨none, diagnostics⟩], [], true⟩

/-- Sends an event; the answer is whether there is a stream to take it. -/
def send (c : Channel) (e : TaggedEvent) : Bool × Channel :=
  if c.hasStream then (true, { c with queue := c.queue ++ [e] }) else (false, c)

/-- Sends an event through an emitter; one that keeps the event back is content. -/
def emit (c : Channel) (emitter : Emitter) (e : Event) : Bool × Channel :=
  if emitter.sends e then c.send (emitter.tag e) else (true, c)

def emitAll (c : Channel) (emitter : Emitter) (events : List Event) : Channel :=
  events.foldl (fun c e => (c.emit emitter e).2) c

def retag (c : Channel) (emitter : Emitter) (correlation : Option String) : Channel :=
  { c with emitters := c.emitters ++ [{ emitter with correlation := correlation }] }

def dropEmitters (c : Channel) : Channel := { c with emitters := [] }

/-- The channel without its stream; what was queued is lost. -/
def dropStream (c : Channel) : Channel := { c with queue := [], hasStream := false }

def take? (c : Channel) : Option TaggedEvent × Channel :=
  match c.queue with
  | [] => (none, c)
  | e :: rest => (some e, { c with queue := rest })

def drain (c : Channel) : List TaggedEvent × Channel := (c.queue, { c with queue := [] })

def poll (c : Channel) : Poll × Channel :=
  match c.take? with
  | (some e, c) => (.event e, c)
  | (none, c) => (if c.emitters.isEmpty then .ended else .pending, c)

theorem queue_emitAll (c : Channel) (emitter : Emitter) (events : List Event)
    (listening : c.hasStream = true) :
    (c.emitAll emitter events).queue = c.queue ++ emitter.sent events := by
  induction events generalizing c with
  | nil => simp [emitAll, Emitter.sent]
  | cons e rest ih =>
    have step : c.emitAll emitter (e :: rest) = (c.emit emitter e).2.emitAll emitter rest := rfl
    rw [step]
    by_cases sends : emitter.sends e
    · rw [ih]
      · simp [emit, send, sends, listening, Emitter.sent]
      · simp [emit, send, sends, listening]
    · rw [ih]
      · simp [emit, sends, Emitter.sent]
      · simp [emit, sends, listening]

end Channel

end RecipeEngine
