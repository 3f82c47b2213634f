import RecipeEngine.Message.Emitter
import RecipeEngine.Message.Host
import RecipeEngine.Run.Report
import RecipeEngine.Worker.BringUp

/-!
# The worker

A message is first *received*: the registry is brought up if it is needed and not yet held, and
what is left to do is at most one run.  The events of a message are those of its receipt followed by
those of its run, and all of them carry the message's correlation id.
-/

namespace RecipeEngine

structure Worker where
  module : FunctionModule
  limit : Duration
  diagnostics : Bool
  starts : Nat
  registry : Option Registry
  /-- The start of the module that has brought up the registry and is kept going. -/
  task : Option Nat := none

structure PendingRun where
  registry : Registry
  program : Program
  initialValue : Json

structure Receipt where
  worker : Worker
  correlation : Option String
  events : List Event
  run : Option PendingRun
  breakdown : Option String

namespace Worker

def new (module : FunctionModule) (limit : Duration) (diagnostics : Bool) : Worker :=
  ⟨module, limit, diagnostics, 0, none, none⟩

def isReady (w : Worker) : Bool := w.registry.isSome

/-- Gives the registry that the worker holds, or tries to bring one up.  A start of the module that
does not bring one up is not kept going. -/
def bringUp (w : Worker) : Worker × BringUp :=
  match w.registry with
  | some r => (w, .ready r)
  | none =>
      let tried := { w with starts := w.starts + 1 }
      match BringUp.attempt w.module w.limit w.starts with
      | .ready r => ({ tried with registry := some r, task := some w.starts }, .ready r)
      | outcome => (tried, outcome)

/-! ## Receiving messages -/

def bringUpEvents : BringUp → List Event
  | .ready r => [.ready r.keys, .diagnostic "Function registry initialized successfully"]
  | .failed e => [.bringUpFailed e.message]
  | .brokeDown _ => []

def brokenBy : BringUp → Option String
  | .brokeDown words => some words
  | _ => none

def notReadyMessage : String :=
  "Function registry not initialized after attempt. Cannot run recipe."

def requestRemark (p : Program) : String :=
  "Received run request. Recipe items: " ++ toString p.length

def receivePrepare (w : Worker) : Receipt :=
  let (worker, outcome) := w.bringUp
  { worker := worker
    correlation := none
    events := .diagnostic "Received initialize message" :: bringUpEvents outcome
    run := none
    breakdown := brokenBy outcome }

def receiveRun (w : Worker) (request : RunRequest) : Receipt :=
  let received : Event := .diagnostic (requestRemark request.program)
  let pending := fun r => PendingRun.mk r request.program request.initialValue
  match w.registry with
  | some r =>
      { worker := w
        correlation := request.correlation
        events := [received]
        run := some (pending r)
        breakdown := none }
  | none =>
      -- The attempt is made for this request, so its events carry the request's id.
      let (worker, outcome) := w.bringUp
      let attempted :=
        received :: .diagnostic "Registry not ready. Attempting initialization first." ::
          bringUpEvents outcome
      { worker := worker
        correlation := request.correlation
        events :=
          match outcome with
          | .failed _ => attempted ++ [.notReady notReadyMessage]
          | _ => attempted
        run :=
          match outcome with
          | .ready r => some (pending r)
          | _ => none
        breakdown := brokenBy outcome }

def receiveInvalid (w : Worker) (reason : Decode.Failure) (correlation : Option String) :
    Receipt where
  worker := w
  correlation := correlation
  events := [.executionFailed ("Invalid host message: " ++ reason.message), .reset]
  run := none
  breakdown := none

def receive (w : Worker) : HostMessage → Receipt
  | .prepare => w.receivePrepare
  | .run request => w.receiveRun request
  | .invalid reason correlation => w.receiveInvalid reason correlation

end Worker

/-! ## Runs and their events -/

def PendingRun.execute (run : PendingRun) : Execution Json :=
  Execution.ofProgram run.registry run.program run.initialValue

namespace Receipt

def emitter (a : Receipt) : Emitter := ⟨a.correlation, a.worker.diagnostics⟩

/-- All events of a message, those of its run being those of the execution `x`. -/
def eventsWith (a : Receipt) (m : Measurement) (x : Option (Execution Json)) : List Event :=
  match x with
  | some x => a.events ++ runEvents m x
  | none => a.events

def block (a : Receipt) (m : Measurement) : List TaggedEvent :=
  a.emitter.sent (a.eventsWith m (a.run.map PendingRun.execute))

end Receipt

/-! ## Sessions -/

structure Served where
  worker : Worker
  /-- What is sent in answer to each message that the worker has handled. -/
  blocks : List (List TaggedEvent)
  breakdown : Option String

namespace Worker

/-- Handles messages one after the other, each measured as `measure` says for its place, the first
being at `place`.  A worker that breaks down handles no more messages. -/
def serve (measure : Nat → Measurement) (w : Worker) : List HostMessage → Nat → Served
  | [], _ => ⟨w, [], none⟩
  | message :: rest, place =>
      let a := w.receive message
      let block := a.block (measure place)
      match a.breakdown with
      | some words => ⟨a.worker, [block], some words⟩
      | none =>
          let later := serve measure a.worker rest (place + 1)
          { later with blocks := block :: later.blocks }

/-- Serving one row after another is serving them in one go, unless the worker breaks down. -/
theorem serve_append (measure : Nat → Measurement) (w : Worker) (first second : List HostMessage)
    (place : Nat) :
    w.serve measure (first ++ second) place =
      let a := w.serve measure first place
      match a.breakdown with
      | some _ => a
      | none =>
          let b := a.worker.serve measure second (place + first.length)
          { b with blocks := a.blocks ++ b.blocks } := by
  induction first generalizing w place with
  | nil => rfl
  | cons message rest ih =>
      simp only [List.cons_append, serve]
      cases h : (w.receive message).breakdown with
      | some words => rfl
      | none =>
          have places : place + (rest.length + 1) = place + 1 + rest.length := by omega
          simp only [ih, List.length_cons, places]
          generalize (w.receive message).worker.serve measure rest (place + 1) = served
          obtain ⟨worker, blocks, breakdown⟩ := served
          cases breakdown <;> rfl

end Worker

end RecipeEngine
