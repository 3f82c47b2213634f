import RecipeEngine.Proofs.Worker.Answer
import RecipeEngine.Worker.Handle

/-!
# Sessions

A host starts a worker and then sends messages and lets the worker handle them, in any order.
Whatever order that is, the worker has answered a first part of the messages, in order and each
with the block of its turn, and the rest waits (`Reached.serves`).
-/

namespace RecipeEngine.Handle

/-- The states that a host's handle on a worker can come to, with the messages sent so far. -/
inductive Reached (measure : Nat → Measurement) (w : Worker) : List HostMessage → Handle → Prop where
  | start {capacity : Nat} {h : Handle} :
      Handle.start w capacity = .ok h → Reached measure w [] h
  | send {sent : List HostMessage} {h h' : Handle} {message : HostMessage} :
      Reached measure w sent h → h.send message = .ok h' →
      Reached measure w (sent ++ [message]) h'
  | settle {sent : List HostMessage} {h : Handle} :
      Reached measure w sent h → Reached measure w sent (h.settle measure)

variable {measure : Nat → Measurement} {w : Worker} {expected : List String}

theorem start_eq_ok {capacity : Nat} {h : Handle} (started : Handle.start w capacity = .ok h) :
    h = ⟨w, [], [], false⟩ := by
  cases checked : checkInbox capacity with
  | ok =>
    simp only [Handle.start, checked] at started
    cases started
    rfl
  | error e =>
    simp only [Handle.start, checked] at started
    cases started

theorem send_eq_ok {h h' : Handle} {message : HostMessage} (accepted : h.send message = .ok h') :
    h' = { h with waiting := h.waiting ++ [message] } := by
  rw [send] at accepted
  split at accepted
  · cases accepted
  · cases accepted
    rfl

theorem blocks_of_serve (promised : w.module.promise = .keys expected) {served : List HostMessage}
    {w' : Worker} {blocks : List (List TaggedEvent)} {breakdown : Option String}
    (session : w.serve measure served 0 = ⟨w', blocks, breakdown⟩) :
    blocks = (w.turns measure served 0).map Turn.block := by
  rw [← (Worker.serve_eq_turns promised measure served 0).2, session]

/-- What the worker of a handle has done: it has served a first part of the messages, and the rest
waits. -/
theorem Reached.serves (promised : w.module.promise = .keys expected) {sent : List HostMessage}
    {h : Handle} (reached : Reached measure w sent h) :
    h.isClosed = false ∧ ∃ served, sent = served ++ h.waiting ∧
      w.serve measure served 0 = ⟨h.worker, h.blocks, none⟩ := by
  induction reached with
  | start started =>
    cases start_eq_ok started
    exact ⟨rfl, [], rfl, rfl⟩
  | send _ accepted ih =>
    cases send_eq_ok accepted
    obtain ⟨isOpen, served, split, session⟩ := ih
    exact ⟨isOpen, served, by rw [split, List.append_assoc], session⟩
  | @settle sent h _ ih =>
    obtain ⟨isOpen, served, split, session⟩ := ih
    obtain ⟨unbroken, -⟩ := Worker.serve_eq_turns promised measure sent 0
    -- The places of the messages that wait follow those of the messages that are served.
    have place : h.blocks.length = served.length := by
      rw [blocks_of_serve promised session, List.length_map, ← List.length_map Turn.message,
        Worker.message_turns]
    have whole : w.serve measure sent 0 = ⟨(h.settle measure).worker, (h.settle measure).blocks,
        (h.worker.serve measure h.waiting h.blocks.length).breakdown⟩ := by
      rw [split, Worker.serve_append, session, Nat.zero_add, ← place]
      rfl
    rw [whole] at unbroken
    refine ⟨?_, sent, (List.append_nil sent).symm, ?_⟩
    · rw [Handle.settle, isOpen, unbroken]
      rfl
    · rw [whole, unbroken]

/-- A worker answers the messages that it has handled in the order in which they were sent, each
with the block of its turn, and each block has the form of an answer. -/
theorem Reached.answers_in_order (promised : w.module.promise = .keys expected)
    {sent : List HostMessage} {h : Handle} (reached : Reached measure w sent h) :
    h.isClosed = false ∧ ∃ served, sent = served ++ h.waiting ∧
      (w.turns measure served 0).map Turn.message = served ∧
      h.events = (w.turns measure served 0).flatMap Turn.block ∧
      ∀ t ∈ w.turns measure served 0, t.before.diagnostics = w.diagnostics ∧ t.IsAnswered := by
  obtain ⟨isOpen, served, split, session⟩ := reached.serves promised
  refine ⟨isOpen, served, split, Worker.message_turns measure w served 0, ?_, ?_⟩
  · rw [events, blocks_of_serve promised session, List.flatMap]
  · intro t member
    obtain ⟨sameModule, sameDiagnostics⟩ := Worker.settings_of_mem_turns member
    rw [← sameModule] at promised
    exact ⟨sameDiagnostics, Turn.isAnswered promised⟩

/-- A worker whose module fails at first and then brings up the built-in functions. -/
def hesitant : Worker where
  module :=
    { FunctionModule.builtin with
      start := fun
        | 0 => .failed "not yet"
        | _ => .ready .builtin }
  limit := .ofSeconds 1
  diagnostics := false
  starts := 0
  registry := none

def steady : Nat → Measurement := fun _ => ⟨.ofSeconds 1, "1"⟩

def twoRequests : List HostMessage :=
  [.run ⟨[], .null, some "first"⟩, .run ⟨[], .null, some "second"⟩]

theorem answers_in_order_hesitant :
    hesitant.module.promise = .keys [Builtin.encodeKey, Builtin.decodeKey] ∧
      ∃ h, Reached steady hesitant twoRequests h ∧ h.waiting = [] ∧
        h.events.map TaggedEvent.correlation =
          [some "first", some "first", some "second", some "second", some "second", some "second"] ∧
        h.isClosed = false ∧ ∃ served, twoRequests = served ++ h.waiting ∧
          (hesitant.turns steady served 0).map Turn.message = served ∧
          h.events = (hesitant.turns steady served 0).flatMap Turn.block ∧
          ∀ t ∈ hesitant.turns steady served 0,
            t.before.diagnostics = hesitant.diagnostics ∧ t.IsAnswered := by
  have started : Reached steady hesitant [] ⟨hesitant, [], [], false⟩ :=
    .start (show Handle.start hesitant 1 = .ok _ from rfl)
  have sent := (started.send (show Handle.send _ twoRequests[0] = .ok _ from rfl)).send
    (show Handle.send _ twoRequests[1] = .ok _ from rfl)
  exact ⟨rfl, _, sent.settle, rfl, rfl, sent.settle.answers_in_order rfl⟩

end RecipeEngine.Handle
