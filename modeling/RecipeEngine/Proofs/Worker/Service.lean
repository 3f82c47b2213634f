import RecipeEngine.Proofs.Function.Builtin
import RecipeEngine.Proofs.Message.Envelope
import RecipeEngine.Proofs.Worker.Holding
import RecipeEngine.Worker.Service

/-!
# The service, line by line

A service that sends no remarks answers every line of its input with a block of events that depends
on the message on that line only, and on whether a line before it was valid: then the registry is
held and need not be announced again (`Service.response`).  What it writes is these blocks, one
after the other, an event on each line, and every line can be read back (`Service.respond_lines`).
-/

namespace RecipeEngine.Service

open Decode Json Text

/-! ## Answers -/

/-- The events that answer a message; `held` is whether the registry was up before it. -/
def responseEvents (m : Measurement) (held : Bool) : HostMessage → List Event
  | .prepare => [.ready Builtin.registry.keys]
  | .run request =>
      (if held then [] else [.ready Builtin.registry.keys]) ++
        (runEvents m (.ofProgram Builtin.registry request.program request.initialValue)).filter
          fun e => !e.isDiagnostic
  | .invalid reason _ => [.executionFailed ("Invalid host message: " ++ reason.message), .reset]

def response (m : Measurement) (held : Bool) (message : HostMessage) : List TaggedEvent :=
  (responseEvents m held message).map (TaggedEvent.mk message.correlation)

/-- The answers to a row of messages: the registry is held from the first valid one on. -/
def responses (measure : Nat → Measurement) (messages : List HostMessage) :
    List (List TaggedEvent) :=
  messages.mapIdx fun place message =>
    response (measure place) ((messages.take place).any HostMessage.isValid) message

/-- The form of the events that answer a message. -/
inductive ResponseForm (m : Measurement) (held : Bool) : HostMessage → List Event → Prop
  | prepare : ResponseForm m held .prepare [.ready Builtin.registry.keys]
  | run {request : RunRequest} {updates : List Event} {terminal : Event} :
      (∀ e ∈ updates, ∃ identifier current total, e = .progress (some identifier) current total) →
      terminal.isTerminal = true →
      ResponseForm m held (.run request)
        ((if held then [] else [.ready Builtin.registry.keys]) ++ updates ++
          [terminal, .timing m.elapsed.milliseconds, .reset])
  | invalid {reason : Failure} {correlation : Option String} :
      ResponseForm m held (.invalid reason correlation)
        [.executionFailed ("Invalid host message: " ++ reason.message), .reset]

theorem responseForm (m : Measurement) (held : Bool) (message : HostMessage) :
    ResponseForm m held message (responseEvents m held message) := by
  cases message with
  | prepare => exact .prepare
  | invalid reason correlation => exact .invalid
  | run request =>
    have interim := Execution.isInterim_ofProgram Builtin.registry request.program
      request.initialValue
    obtain ⟨front, reported, interim⟩ := exists_runEvents m interim
    have ends := isTerminal_terminalEvent m
      (Execution.ofProgram Builtin.registry request.program request.initialValue).result
    generalize terminalEvent m _ = terminal at reported ends
    have shown : [terminal, .timing m.elapsed.milliseconds, .reset].filter
        (fun e => !e.isDiagnostic) = [terminal, .timing m.elapsed.milliseconds, .reset] := by
      rw [List.filter_eq_self]
      intro e member
      rw [isDiagnostic_of_closing ends m e member]
      rfl
    rw [responseEvents, reported, List.filter_append, shown, ← List.append_assoc]
    refine .run (fun e member => ?_) ends
    obtain ⟨inFront, notRemark⟩ := List.mem_filter.1 member
    have goesOn := interim e inFront
    cases e with
    | progress identifier current total =>
      cases identifier with
      | some identifier => exact ⟨identifier, current, total, rfl⟩
      | none => cases goesOn
    | diagnostic => cases notRemark
    | ready | bringUpFailed | notReady | finalResult | executionFailed | timing => cases goesOn

/-! ## Turns -/

/-- A worker with the built-in functions that sends no remarks; `held` is whether it holds its
registry. -/
structure Serves (held : Bool) (w : Worker) : Prop where
  module : w.module = .builtin
  diagnostics : w.diagnostics = false
  registry : w.registry = if held then some Builtin.registry else none

theorem serves_worker {c : Config} (quiet : c.diagnostics = false) : Serves false (worker c) :=
  ⟨rfl, quiet, rfl⟩

variable {held : Bool} {w : Worker}

theorem Serves.bringUp (serves : Serves held w) :
    ∃ w', w.bringUp = (w', .ready Builtin.registry) ∧ Serves true w' := by
  cases held with
  | true =>
    have holds : w.registry = some Builtin.registry := serves.registry
    exact ⟨w, by rw [Worker.bringUp, holds], serves⟩
  | false =>
    have holdsNone : w.registry = none := serves.registry
    have outcome := BringUp.attempt_builtin w.limit w.starts
    rw [← serves.module] at outcome
    refine ⟨{ w with starts := w.starts + 1, registry := some Builtin.registry,
                     task := some w.starts }, ?_, serves.module, serves.diagnostics, rfl⟩
    simp only [Worker.bringUp, holdsNone, outcome]

/-- The events of a turn, remarks apart, are those that answer its message. -/
theorem Serves.filter_eventsWith (serves : Serves held w) (message : HostMessage)
    (m : Measurement) :
    ((w.receive message).eventsWith m ((w.receive message).run.map PendingRun.execute)).filter
      (fun e => !e.isDiagnostic) = responseEvents m held message := by
  obtain ⟨w', outcome, -⟩ := serves.bringUp
  cases message with
  | invalid reason correlation => rfl
  | prepare =>
    simp only [Worker.receive, Worker.receivePrepare, outcome, Receipt.eventsWith]
    rfl
  | run request =>
    cases held with
    | true =>
      have holds : w.registry = some Builtin.registry := serves.registry
      simp only [Worker.receive, Worker.receiveRun, holds, Receipt.eventsWith, Option.map_some,
        List.filter_append]
      rfl
    | false =>
      have holdsNone : w.registry = none := serves.registry
      simp only [Worker.receive, Worker.receiveRun, holdsNone, outcome, Receipt.eventsWith,
        Option.map_some, List.filter_append]
      rfl

/-- A turn answers its message, and if that is valid, the registry is held from then on. -/
theorem Serves.receive (serves : Serves held w) (message : HostMessage) (m : Measurement) :
    (w.receive message).breakdown = none ∧ (w.receive message).block m = response m held message ∧
      Serves (held || message.isValid) (w.receive message).worker := by
  have unbroken := Worker.breakdown_receive (w := w) (by rw [serves.module]; rfl) message
  have quiet : (w.receive message).emitter.diagnostics = false :=
    (Worker.settings_receive w message).2.trans serves.diagnostics
  have tagged := Worker.correlation_receive w message
  refine ⟨unbroken, ?_, ?_⟩
  · rw [Receipt.block, Emitter.sent_of_quiet quiet, response, serves.filter_eventsWith message m, ← tagged]
    rfl
  · cases valid : message.isValid with
    | false =>
      cases message with
      | invalid reason correlation =>
        rw [Bool.or_false]
        exact serves
      | prepare => cases valid
      | run => cases valid
    | true =>
      obtain ⟨w', outcome, holds⟩ := serves.bringUp
      rw [Bool.or_true, Worker.worker_receive valid, outcome]
      exact holds

/-! ## Sessions -/

theorem Serves.blocks_serve (serves : Serves held w) (measure : Nat → Measurement)
    (messages : List HostMessage) (start : Nat) :
    (w.serve measure messages start).blocks =
      messages.mapIdx fun place message =>
        response (measure (start + place)) (held || (messages.take place).any HostMessage.isValid)
          message := by
  -- The worker is generalised with the flag: after a message it serves on, the flag updated.
  induction messages generalizing w held start with
  | nil => rfl
  | cons message rest ih =>
    obtain ⟨unbroken, block, later⟩ := serves.receive message (measure start)
    simp only [Worker.serve, unbroken, block, ih later (start + 1), List.mapIdx_cons,
      List.take_zero, List.any_nil, Bool.or_false, Nat.add_zero, List.take_succ_cons,
      List.any_cons, Bool.or_assoc, Nat.add_assoc, Nat.add_comm 1]

theorem serve_worker {c : Config} (quiet : c.diagnostics = false) (measure : Nat → Measurement)
    (messages : List HostMessage) :
    ((worker c).serve measure messages 0).blocks = responses measure messages := by
  rw [(serves_worker quiet).blocks_serve measure messages 0, responses]
  simp only [Nat.zero_add, Bool.false_or]

/-! ## Output that can be read back -/

/-- A value that is canonical and shallow enough to be read back as a part of an object. -/
def IsPart (v : Json) : Prop := v.Canonical ∧ v.nesting ≤ 126

theorem isPart_canonical {j : Json} (flat : j.nesting ≤ 126) : IsPart j.canonical :=
  ⟨canonical_canonical j, Nat.le_trans (nesting_canonical_le j) flat⟩

theorem isPart_of_isInitialValue {values : List Json} {v : Json}
    (isValue : HostMessage.IsInitialValue values v) (flat : ∀ j ∈ values, j.nesting ≤ 126) :
    IsPart v := by
  cases isValue with
  | absent => exact ⟨trivial, Nat.zero_le _⟩
  | given => exact isPart_canonical (flat _ (List.mem_singleton_self _))

/-- What a line gives as the initial value of a run can be read back as a part of an object. -/
theorem isPart_initialValue {line : String} {request : RunRequest}
    (asks : HostMessage.ofLine line = .run request) : IsPart request.initialValue := by
  obtain ⟨j, acceptable, stands⟩ := HostMessage.ofLine_eq_iff.1 ⟨asks, rfl⟩
  have flat := acceptable.nesting_le
  cases stands with
  | runObject _ _ _ _ isValue _ =>
    refine isPart_of_isInitialValue isValue fun v given => ?_
    obtain ⟨m, member, rfl⟩ := List.mem_map.1 given
    exact nesting_object_le_succ.1 flat m (List.mem_filter.1 member).1
  | runArray _ _ isValue _ _ =>
    refine isPart_of_isInitialValue isValue fun v given => ?_
    refine nesting_array_le_succ.1 flat v ?_
    exact List.mem_cons_of_mem _ (List.mem_cons_of_mem _ (List.mem_append_left _ given))

/-- A run sends a final result only if it ends with that value. -/
theorem result_of_mem_runEvents {r : Registry} {p : Program} {v w : Json} {m : Measurement}
    (member : .finalResult w ∈ runEvents m (.ofProgram r p v)) :
    (Execution.ofProgram r p v).result = .ok w := by
  obtain ⟨front, reported, interim⟩ := exists_runEvents m (Execution.isInterim_ofProgram r p v)
  rw [reported] at member
  simp only [List.mem_append, List.mem_cons, List.not_mem_nil, or_false] at member
  obtain inFront | isTerminal | isTiming | isReset := member
  · cases interim _ inFront
  · cases result : (Execution.ofProgram r p v).result with
    | ok u =>
      rw [result] at isTerminal
      cases isTerminal
      rfl
    | error reason => rw [result] at isTerminal; cases reason <;> cases isTerminal
  · cases isTiming
  · cases isReset

/-- A final result that answers a line can be read back as a part of an object. -/
theorem isPart_of_mem_responseEvents {line : String} {m : Measurement} {held : Bool} {v : Json}
    (member : .finalResult v ∈ responseEvents m held (.ofLine line)) : IsPart v := by
  cases asks : HostMessage.ofLine line with
  | prepare =>
    rw [asks] at member
    cases List.mem_singleton.1 member
  | invalid reason correlation =>
    rw [asks] at member
    simp [responseEvents, Event.reset] at member
  | run request =>
    rw [asks, responseEvents] at member
    obtain announced | sent := List.mem_append.1 member
    · cases held with
      | true => cases announced
      | false => cases List.mem_singleton.1 announced
    · have ends := result_of_mem_runEvents (List.mem_filter.1 sent).1
      obtain rfl | ⟨t, rfl⟩ := Builtin.result_cases ends
      · exact isPart_initialValue asks
      · exact ⟨trivial, Nat.zero_le _⟩

/-- What the lines of the input mean. -/
def received (cs : List Char) : List HostMessage :=
  (Input.lines cs).map (HostMessage.ofLine ∘ String.ofList)

/-- What a service writes for blocks of events, `clock` giving the time of each event. -/
def envelopes (clock : Nat → Timestamp) (blocks : List (List TaggedEvent)) : List Envelope :=
  blocks.flatten.mapIdx fun place e => e.sentAt (clock place)

theorem isPart_of_mem_envelopes {measure : Nat → Measurement} {clock : Nat → Timestamp}
    {cs : List Char} {e : Envelope}
    (member : e ∈ envelopes clock (responses measure (received cs))) {v : Json}
    (result : e.event = .finalResult v) : IsPart v := by
  obtain ⟨place, within, rfl⟩ := List.mem_mapIdx.1 member
  obtain ⟨block, isBlock, inBlock⟩ := List.mem_flatten.1 (List.getElem_mem within)
  obtain ⟨turn, inSession, rfl⟩ := List.mem_mapIdx.1 isBlock
  obtain ⟨line, -, isLine⟩ := List.mem_map.1 (List.getElem_mem inSession)
  rw [← isLine] at inBlock
  obtain ⟨event, answers, isEvent⟩ := List.mem_map.1 inBlock
  rw [TaggedEvent.sentAt, ← isEvent] at result
  cases result
  exact isPart_of_mem_responseEvents answers

/-- A service that starts and sends no remarks answers its input line by line: each message gets
the response that depends on it and on whether a message before it was valid, and each response
has its form.  What is written, cut into lines, is read as the events of all responses in order,
with the binary64 numbers in them read back. -/
theorem respond_lines {c : Config} (started : checkInbox c.commandBuffer = .ok ())
    (quiet : c.diagnostics = false) (measure : Nat → Measurement) (clock : Nat → Timestamp)
    (cs : List Char) :
    respond c measure (octets cs) = .ok (responses measure (received cs)) ∧
      (∀ m held message, ResponseForm m held message (responseEvents m held message)) ∧
      (Input.split (Envelope.written (envelopes clock (responses measure (received cs))))).map
          Envelope.readLine =
        (envelopes clock (responses measure (received cs))).map fun e => some (.ok e.reread) := by
  refine ⟨?_, responseForm, ?_⟩
  · rw [respond, started, ok_bind, Input.messages_octets, serve_worker quiet, received]
  · rw [Envelope.split_written, List.map_map]
    refine List.map_congr_left fun e member => ?_
    have isPart (v : Json) (result : e.event = .finalResult v) :=
      isPart_of_mem_envelopes member result
    exact Envelope.readLine_octets
      (Envelope.nesting_toJson_le fun v result => (isPart v result).2)
      fun v result => (isPart v result).1

/-- A line that is no message, a blank line, and a request on an unfinished last line. -/
def briefInput : List Char := "run\n \n[\"runRecipe\",[]]".toList

def briefResponses : List (List TaggedEvent) :=
  responses (fun _ => ⟨.ofSeconds 1, "1"⟩) (received briefInput)

theorem respond_lines_brief :
    checkInbox (Config.default "worker").commandBuffer = .ok () ∧
      (Config.default "worker").diagnostics = false ∧
      respond (.default "worker") (fun _ => ⟨.ofSeconds 1, "1"⟩) (octets briefInput) =
        .ok briefResponses ∧
      (Input.split (Envelope.written (envelopes (fun _ => .epoch) briefResponses))).map
          Envelope.readLine =
        (envelopes (fun _ => .epoch) briefResponses).map fun e => some (.ok e.reread) := by
  have started : checkInbox (Config.default "worker").commandBuffer = .ok () := rfl
  obtain ⟨answered, -, readBack⟩ :=
    respond_lines started rfl (fun _ => ⟨.ofSeconds 1, "1"⟩) (fun _ => .epoch) briefInput
  exact ⟨started, rfl, answered, readBack⟩

/-- The blank line is passed over, and the registry is announced with the first request. -/
example : briefResponses.map (·.map TaggedEvent.event) =
    [[.executionFailed "Invalid host message: expected value at line 1 column 1", .reset],
      [.ready ["decodeBase64", "encodeBase64"], .finalResult .null,
        .timing (Duration.ofSeconds 1).milliseconds, .reset]] := by
  decide +kernel

end RecipeEngine.Service
