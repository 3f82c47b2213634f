import RecipeEngine.Worker.Basic

/-!
# The turns of a session

A session goes message by message; a *turn* is the handling of one of them.  Whatever happens in a
turn, the settings of the worker stay as they are, and unless asking the module for its promise
breaks down, the worker goes on to the next message: it answers each message with the block of the
turn (`serve_eq_turns`).
-/

namespace RecipeEngine

def HostMessage.correlation : HostMessage → Option String
  | .prepare => none
  | .run request => request.correlation
  | .invalid _ correlation => correlation

/-- The handling of one message. -/
structure Turn where
  before : Worker
  message : HostMessage
  /-- What is known of the run, if the message leads to one. -/
  measurement : Measurement

namespace Turn

def receipt (t : Turn) : Receipt := t.before.receive t.message

def after (t : Turn) : Worker := t.receipt.worker

def block (t : Turn) : List TaggedEvent := t.receipt.block t.measurement

/-- The functions that are applied in answer to the message, with their inputs. -/
def applications (t : Turn) : List (String × Json) :=
  match t.receipt.run with
  | none => []
  | some run => run.execute.applications

end Turn

namespace Worker

variable {w : Worker} {expected : List String}

/-- The turns of a worker that handles messages, the first of them at `place`. -/
def turns (measure : Nat → Measurement) (w : Worker) : List HostMessage → Nat → List Turn
  | [], _ => []
  | message :: rest, place =>
      let t : Turn := ⟨w, message, measure place⟩
      t :: turns measure t.after rest (place + 1)

/-! ## Bringing up the registry -/

theorem bringUp_cases (promised : w.module.promise = .keys expected) :
    (∃ w' r, w.bringUp = (w', .ready r) ∧ w'.registry = some r) ∨
      ∃ w' e, w.bringUp = (w', .failed e) ∧ w'.registry = none := by
  cases held : w.registry with
  | some r => exact .inl ⟨w, r, by rw [bringUp, held], held⟩
  | none =>
    simp only [bringUp, held, BringUp.attempt]
    cases w.module.start w.starts with
    | failed reason => exact .inr ⟨_, _, rfl, rfl⟩
    | exited => exact .inr ⟨_, _, rfl, rfl⟩
    | silent => exact .inr ⟨_, _, rfl, rfl⟩
    | ready r =>
      simp only [BringUp.ofRegistry, promised]
      cases acceptRegistry expected r with
      | ok accepted => exact .inl ⟨_, _, rfl, rfl⟩
      | error e => exact .inr ⟨_, _, rfl, rfl⟩

theorem settings_bringUp (w : Worker) :
    w.bringUp.1.module = w.module ∧ w.bringUp.1.diagnostics = w.diagnostics := by
  cases held : w.registry with
  | some r => simp [bringUp, held]
  | none =>
    simp only [bringUp, held]
    cases BringUp.attempt w.module w.limit w.starts <;> exact ⟨rfl, rfl⟩

/-! ## One turn -/

/-- No message changes the settings of a worker. -/
theorem settings_receive (w : Worker) (message : HostMessage) :
    (w.receive message).worker.module = w.module ∧
      (w.receive message).worker.diagnostics = w.diagnostics := by
  cases message with
  | prepare => exact settings_bringUp w
  | invalid reason correlation => exact ⟨rfl, rfl⟩
  | run request =>
    simp only [receive, receiveRun]
    cases w.registry with
    | some r => exact ⟨rfl, rfl⟩
    | none => exact settings_bringUp w

theorem breakdown_receive (promised : w.module.promise = .keys expected) (message : HostMessage) :
    (w.receive message).breakdown = none := by
  cases message with
  | invalid reason correlation => rfl
  | prepare =>
    simp only [receive, receivePrepare]
    obtain ⟨w', r, outcome, -⟩ | ⟨w', e, outcome, -⟩ := bringUp_cases promised
    · rw [outcome]; rfl
    · rw [outcome]; rfl
  | run request =>
    simp only [receive, receiveRun]
    cases w.registry with
    | some r => rfl
    | none =>
      obtain ⟨w', r, outcome, -⟩ | ⟨w', e, outcome, -⟩ := bringUp_cases promised
      · rw [outcome]; rfl
      · rw [outcome]; rfl

/-! ## Whole sessions -/

theorem message_turns (measure : Nat → Measurement) (w : Worker) (messages : List HostMessage) (place : Nat) :
    (w.turns measure messages place).map Turn.message = messages := by
  induction messages generalizing w place with
  | nil => rfl
  | cons message rest ih =>
    simp only [turns, List.map_cons, ih]

/-- A worker whose module tells its promise answers each message with the block of its turn. -/
theorem serve_eq_turns (promised : w.module.promise = .keys expected)
    (measure : Nat → Measurement) (messages : List HostMessage) (place : Nat) :
    (w.serve measure messages place).breakdown = none ∧
      (w.serve measure messages place).blocks = (w.turns measure messages place).map Turn.block := by
  induction messages generalizing w place with
  | nil => exact ⟨rfl, rfl⟩
  | cons message rest ih =>
    have kept : (w.receive message).worker.module.promise = .keys expected := by
      rw [(settings_receive w message).1, promised]
    obtain ⟨unbroken, blocks⟩ := ih kept (place + 1)
    simp only [serve, breakdown_receive promised message, turns, List.map_cons]
    refine ⟨unbroken, ?_⟩
    rw [blocks]
    rfl

theorem settings_of_mem_turns {measure : Nat → Measurement} {messages : List HostMessage}
    {place : Nat} {t : Turn}
    (member : t ∈ w.turns measure messages place) :
    t.before.module = w.module ∧ t.before.diagnostics = w.diagnostics := by
  induction messages generalizing w place with
  | nil => cases member
  | cons message rest ih =>
    rw [turns, List.mem_cons] at member
    cases member with
    | inl first => rw [first]; exact ⟨rfl, rfl⟩
    | inr later =>
      obtain ⟨module, diagnostics⟩ := ih later
      obtain ⟨sameModule, sameDiagnostics⟩ := settings_receive w message
      exact ⟨module.trans sameModule, diagnostics.trans sameDiagnostics⟩

end Worker

end RecipeEngine
