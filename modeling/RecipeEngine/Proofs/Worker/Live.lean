import RecipeEngine.Proofs.Run.Live
import RecipeEngine.Proofs.Worker.Answer

/-!
# Sessions as they happen

A live worker tells its events when they come up, those of each message through an emitter with the
id of the message.  For each message it plays what `Worker.receive` leads to (`handle_eq_play`), and
so in a session it does what `Worker.serve` says (`serve_spec`).
-/

namespace RecipeEngine

namespace Live

/-- Brings the registry up and reports how that ends; a breakdown goes unreported. -/
def bringUp (o : Observer) (w : Worker) : Live (Worker × Option Registry) :=
  match w.bringUp with
  | (w, .ready r) => do
      let _ ← emit o (.ready r.keys)
      let _ ← remark o "Function registry initialized successfully"
      pure (w, some r)
  | (w, .failed e) => do
      let _ ← emit o (.bringUpFailed e.message)
      pure (w, none)
  | (_, .brokeDown words) => halt (.brokeDown words)

def handleRun (o : Observer) (m : Measurement) (w : Worker) (request : RunRequest) :
    Live Worker := do
  let _ ← remarkLazily o fun _ => Worker.requestRemark request.program
  match w.registry with
  | some r =>
      perform o m r request.program request.initialValue
      pure w
  | none =>
      let _ ← remark o "Registry not ready. Attempting initialization first."
      match ← bringUp o w with
      | (w, some r) =>
          perform o m r request.program request.initialValue
          pure w
      | (w, none) =>
          let _ ← emit o (.notReady Worker.notReadyMessage)
          pure w

def handle (logs : Bool) (m : Measurement) (w : Worker) (message : HostMessage) : Live Worker :=
  let o : Observer := ⟨⟨message.correlation, w.diagnostics⟩, logs⟩
  match message with
  | .prepare => do
      let _ ← remark o "Received initialize message"
      let (w, _) ← bringUp o w
      pure w
  | .run request => handleRun o m w request
  | .invalid reason _ => do
      let _ ← emit o (.executionFailed ("Invalid host message: " ++ reason.message))
      let _ ← emit o .reset
      pure w

/-- Handles messages one after the other, as `Worker.serve` does. -/
def serve (logs : Bool) (measure : Nat → Measurement) (w : Worker) :
    List HostMessage → Nat → Live Worker
  | [], _ => pure w
  | message :: rest, place => do
      let w ← handle logs (measure place) w message
      serve logs measure w rest (place + 1)

end Live

/-! ## One message -/

namespace Receipt

/-- All that is done in answer to a message. -/
def actions (a : Receipt) (m : Measurement) : List Action :=
  a.events.map .send ++
    match a.run with
    | some run => run.execute.withReport m
    | none => []

/-- The worker after the message, unless it broke down. -/
def outcome (a : Receipt) : Except Halt Worker :=
  match a.breakdown with
  | some words => .error (.brokeDown words)
  | none => .ok a.worker

def applications (a : Receipt) : List (String × Json) :=
  match a.run with
  | some run => run.execute.applications
  | none => []

end Receipt

namespace Live

theorem handle_eq_play (logs : Bool) (m : Measurement) (w : Worker) (message : HostMessage) :
    handle logs m w message =
      play ⟨⟨message.correlation, w.diagnostics⟩, logs⟩
        ⟨(w.receive message).actions m, (w.receive message).outcome⟩ := by
  funext outside
  cases message with
  | invalid reason correlation =>
    simp only [handle]
    rw [emit_bind rfl, emit_bind rfl]
    rfl
  | prepare =>
    simp only [handle, Live.bringUp, Worker.receive, Worker.receivePrepare]
    obtain ⟨w', outcome⟩ := w.bringUp
    cases outcome with
    | ready r =>
      simp only [bind_assoc, pure_bind]
      rw [remark_bind, emit_bind rfl, remark_bind]
      rfl
    | failed e =>
      simp only [bind_assoc, pure_bind]
      rw [remark_bind, emit_bind rfl]
      rfl
    | brokeDown words =>
      rw [remark_bind]
      rfl
  | run request =>
    simp only [handle, handleRun, Live.bringUp, Worker.receive, Worker.receiveRun,
      remarkLazily_eq_remark, perform_eq_play]
    cases w.registry with
    | some r =>
      rw [remark_bind]
      rfl
    | none =>
      obtain ⟨w', outcome⟩ := w.bringUp
      cases outcome with
      | ready r =>
        simp only [bind_assoc, pure_bind]
        rw [remark_bind, remark_bind, emit_bind rfl, remark_bind]
        rfl
      | failed e =>
        simp only [bind_assoc, pure_bind]
        rw [remark_bind, remark_bind, emit_bind rfl, emit_bind rfl]
        rfl
      | brokeDown words =>
        dsimp only
        rw [remark_bind, remark_bind]
        rfl

end Live

/-! ## Sessions -/

namespace Receipt

theorem events_actions {α : Type} (a : Receipt) (m : Measurement) (result : Except Halt α) :
    (Execution.mk (a.actions m) result).events =
      a.eventsWith m (a.run.map PendingRun.execute) := by
  rw [actions, Execution.events_append, Execution.events_sends]
  cases a.run with
  | none => exact List.append_nil _
  | some run => exact congrArg (a.events ++ ·) (Execution.events_withReport m run.execute result)

theorem applications_actions {α : Type} (a : Receipt) (m : Measurement) (result : Except Halt α) :
    (Execution.mk (a.actions m) result).applications = a.applications := by
  rw [actions, Execution.applications_append, Execution.applications_sends, applications]
  cases a.run with
  | none => rfl
  | some run => exact Execution.applications_withReport m run.execute result

end Receipt

namespace Worker

/-- The functions that are applied in a session, with their inputs. -/
def applications (w : Worker) : List HostMessage → List (String × Json)
  | [] => []
  | message :: rest =>
      let a := w.receive message
      match a.breakdown with
      | some _ => a.applications
      | none => a.applications ++ applications a.worker rest

end Worker

/-- The worker that has served a row of messages, unless it broke down. -/
def Served.outcome (s : Served) : Except Halt Worker :=
  match s.breakdown with
  | some words => .error (.brokeDown words)
  | none => .ok s.worker

namespace Live

theorem gains_handle (logs : Bool) (m : Measurement) (w : Worker) (message : HostMessage)
    (outside : Outside) :
    outside.Gains (handle logs m w message outside).2 (w.receive message).applications
      ((w.receive message).block m) := by
  have emitter : (w.receive message).emitter = ⟨message.correlation, w.diagnostics⟩ := by
    rw [Receipt.emitter, Worker.correlation_receive, (Worker.settings_receive w message).2]
  have gains := gains_play ⟨⟨message.correlation, w.diagnostics⟩, logs⟩
    ⟨(w.receive message).actions m, (w.receive message).outcome⟩ outside
  rw [handle_eq_play, Receipt.block, emitter]
  rwa [Receipt.events_actions, Receipt.applications_actions] at gains

/-- A live session ends as the served one does and sends the same blocks of events. -/
theorem serve_spec (logs : Bool) (measure : Nat → Measurement) (w : Worker)
    (messages : List HostMessage) (place : Nat) (outside : Outside) :
    (serve logs measure w messages place outside).1 = (w.serve measure messages place).outcome ∧
      outside.Gains (serve logs measure w messages place outside).2 (w.applications messages)
        (w.serve measure messages place).blocks.flatten := by
  induction messages generalizing w place outside with
  | nil => exact ⟨rfl, .refl outside⟩
  | cons message rest ih =>
    have gains := gains_handle logs (measure place) w message outside
    have ends : (handle logs (measure place) w message outside).1 =
        (w.receive message).outcome := by
      rw [handle_eq_play]
      rfl
    rw [serve, Worker.serve, Worker.applications]
    -- A breakdown ends both sessions; otherwise both go on from the same worker.
    cases handled : handle logs (measure place) w message outside with
    | mk result between =>
      rw [handled] at gains ends
      cases broken : (w.receive message).breakdown with
      | some words =>
        rw [Receipt.outcome, broken] at ends
        cases ends
        rw [Live.bind_of_error handled]
        refine ⟨rfl, ?_⟩
        simpa using gains
      | none =>
        rw [Receipt.outcome, broken] at ends
        cases ends
        rw [Live.bind_of_ok handled]
        obtain ⟨result, later⟩ := ih (w.receive message).worker (place + 1) between
        exact ⟨result, gains.trans later⟩

end Live

end RecipeEngine
