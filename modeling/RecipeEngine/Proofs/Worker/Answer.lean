import Mathlib.Data.List.Forall2
import RecipeEngine.Proofs.Message.Emitter
import RecipeEngine.Proofs.Run.Report
import RecipeEngine.Proofs.Worker.Turn

/-!
# The answer to a message

What a turn sends has a fixed form (`isAnswered`).  The answer to a request to get ready has no
delimiter; any other answer has one, which comes last.  If the worker has a registry, the answer to
a request for a run ends with a terminal event, the time and the reset.  Once the worker has a
registry its answers depend on nothing else but the message, measurements apart.
-/

namespace RecipeEngine

/-- Two events that differ at most in what the measurements say. -/
inductive Event.SameApart (m m' : Measurement) : Event → Event → Prop where
  | same (e : Event) : SameApart m m' e e
  | elapsed : SameApart m m' (.timing m.elapsed.milliseconds) (.timing m'.elapsed.milliseconds)
  | task (words : String) :
      SameApart m m' (.executionFailed (abortedMessage m.task words))
        (.executionFailed (abortedMessage m'.task words))

theorem Event.SameApart.isDiagnostic_eq {m m' : Measurement} {e e' : Event}
    (related : e.SameApart m m' e') : e.isDiagnostic = e'.isDiagnostic := by
  cases related with
  | same => rfl
  | elapsed => simp only [isDiagnostic]
  | task words => simp only [isDiagnostic]

def TaggedEvent.SameApart (m m' : Measurement) (e e' : TaggedEvent) : Prop :=
  e.correlation = e'.correlation ∧ e.event.SameApart m m' e'.event

/-- The form of the answer to a message. -/
structure Turn.IsAnswered (t : Turn) : Prop where
  /-- All events carry the id of the message. -/
  tagged : ∀ e ∈ t.block, e.correlation = t.message.correlation
  /-- A request to get ready is answered without a delimiter. -/
  undelimited : t.message = .prepare → ∀ e ∈ t.block, e.event.isDelimiter = false
  /-- Any other answer has one delimiter, its last event. -/
  delimited : t.message ≠ .prepare →
    ∃ front last, t.block = front ++ [last] ∧ last.event.isDelimiter = true ∧
      ∀ e ∈ front, e.event.isDelimiter = false
  /-- A run that there is a registry for is reported by one terminal event, one time and the
  reset. -/
  reported : ∀ request, t.message = .run request → t.after.isReady = true →
    ∃ front terminal timing reset, t.block = front ++ [terminal, timing, reset] ∧
      terminal.event.isTerminal = true ∧
      timing.event = .timing t.measurement.elapsed.milliseconds ∧ reset.event = .reset ∧
      ∀ e ∈ front, e.event.isTerminal = false ∧ e.event.isTiming = false
  /-- A run that there is no registry for is refused. -/
  refused : ∀ request, t.message = .run request → t.after.isReady = false →
    ∃ front last, t.block = front ++ [last] ∧ last.event = .notReady Worker.notReadyMessage
  /-- Where a run is refused, nothing is run. -/
  idle : ∀ front last words, t.block = front ++ [last] → last.event = .notReady words →
    t.applications = [] ∧ ∀ e ∈ front, e.event.isTerminal = false
  /-- Two workers with one registry answer alike. -/
  uniform : ∀ r, t.before.registry = some r → ∀ w : Worker, w.registry = some r →
    w.diagnostics = t.before.diagnostics → ∀ m,
      List.Forall₂ (TaggedEvent.SameApart t.measurement m) t.block (Turn.mk w t.message m).block

/-! ## Emitters -/

namespace Emitter

variable {emitter : Emitter} {events : List Event}

theorem sent_sameApart {m m' : Measurement} {events' : List Event}
    (same : List.Forall₂ (Event.SameApart m m') events events') :
    List.Forall₂ (TaggedEvent.SameApart m m') (emitter.sent events) (emitter.sent events') := by
  apply List.rel_map
  · intro e e' related
    exact ⟨rfl, related⟩
  · refine List.rel_filter ?_ same
    intro e e' related
    have alike : e.isDiagnostic = e'.isDiagnostic := related.isDiagnostic_eq
    show emitter.sends e = true ↔ emitter.sends e' = true
    rw [sends, sends, alike]

end Emitter

/-! ## Events up to measurements -/

theorem sameApart_refl (m m' : Measurement) (events : List Event) :
    List.Forall₂ (Event.SameApart m m') events events :=
  List.forall₂_same.2 fun e _ => .same e

theorem runEvents_sameApart (m m' : Measurement) (x : Execution Json) :
    List.Forall₂ (Event.SameApart m m') (runEvents m x) (runEvents m' x) := by
  have closing : List.Forall₂ (Event.SameApart m m') (closingEvents m) (closingEvents m') :=
    .cons .elapsed (.cons (.same _) .nil)
  have outcome : List.Forall₂ (Event.SameApart m m') (outcomeEvents m x.result)
      (outcomeEvents m' x.result) := by
    cases x.result with
    | ok v => exact sameApart_refl m m' _
    | error reason =>
      cases reason with
      | failed e => exact sameApart_refl m m' _
      | brokeDown words => exact .cons (.task words) .nil
  exact List.rel_append (List.rel_append (sameApart_refl m m' x.events) outcome) closing

/-! ## Receipts -/

theorem Receipt.eventsWith_sameApart (a : Receipt) (m m' : Measurement)
    (x : Option (Execution Json)) :
    List.Forall₂ (Event.SameApart m m') (a.eventsWith m x) (a.eventsWith m' x) := by
  cases x with
  | none => exact sameApart_refl m m' _
  | some x => exact List.rel_append (sameApart_refl m m' _) (runEvents_sameApart m m' x)

/-- What is sent of a receipt whose events are preliminary ones with closing ones behind them. -/
theorem Receipt.exists_block {a : Receipt} {m : Measurement} {events closing : List Event}
    (preliminary : ∀ e ∈ events, e.isPreliminary = true)
    (shown : ∀ e ∈ closing, e.isDiagnostic = false)
    (all : a.eventsWith m (a.run.map PendingRun.execute) = events ++ closing) :
    ∃ front, a.block m = front ++ closing.map (TaggedEvent.mk a.correlation) ∧
      ∀ e ∈ front, e.event.isPreliminary = true := by
  refine ⟨a.emitter.sent events, ?_, ?_⟩
  · rw [block, all, Emitter.sent_append, Emitter.sent_eq_map shown]
    rfl
  · intro e member
    exact preliminary e.event (Emitter.of_mem_sent member).2

namespace Worker

variable {w : Worker} {expected : List String}

theorem isPreliminary_of_mem_bringUpEvents {outcome : BringUp} :
    ∀ e ∈ bringUpEvents outcome, e.isPreliminary = true := by
  cases outcome <;> simp [bringUpEvents, Event.isPreliminary, Event.isTerminal, Event.isTiming,
    Event.isDelimiter, Event.isReset, Event.reset]

theorem correlation_receive (w : Worker) (message : HostMessage) :
    (w.receive message).correlation = message.correlation := by
  cases message with
  | prepare => rfl
  | invalid reason correlation => rfl
  | run request =>
    simp only [receive, receiveRun]
    cases w.registry <;> rfl

/-- What the receipt of a request for a run leads to: the run if there is a registry, else a
refusal. -/
theorem receive_run_cases (promised : w.module.promise = .keys expected) (request : RunRequest) :
    (∃ r, (w.receive (.run request)).worker.registry = some r ∧
      (w.receive (.run request)).run = some ⟨r, request.program, request.initialValue⟩ ∧
      ∀ e ∈ (w.receive (.run request)).events, e.isPreliminary = true) ∨
    ((w.receive (.run request)).worker.registry = none ∧ (w.receive (.run request)).run = none ∧
      ∃ front, (w.receive (.run request)).events = front ++ [.notReady notReadyMessage] ∧
        ∀ e ∈ front, e.isPreliminary = true) := by
  have remark : ∀ words, (Event.diagnostic words).isPreliminary = true := fun _ => rfl
  simp only [receive, receiveRun]
  cases held : w.registry with
  | some r =>
    refine .inl ⟨r, held, rfl, ?_⟩
    intro e member
    cases List.mem_singleton.1 member
    exact remark _
  | none =>
    have attempted : ∀ outcome, ∀ e ∈ Event.diagnostic (requestRemark request.program) ::
        .diagnostic "Registry not ready. Attempting initialization first." ::
          bringUpEvents outcome, e.isPreliminary = true := by
      intro outcome e member
      simp only [List.mem_cons] at member
      obtain rfl | rfl | member := member
      · exact remark _
      · exact remark _
      · exact isPreliminary_of_mem_bringUpEvents e member
    obtain ⟨w', r, outcome, ready⟩ | ⟨w', e, outcome, unready⟩ := bringUp_cases promised
    · rw [outcome]
      exact .inl ⟨r, ready, rfl, attempted _⟩
    · rw [outcome]
      exact .inr ⟨unready, rfl, _, rfl, attempted _⟩

/-- A worker with a registry keeps it, and what it makes of a message depends on the registry
only. -/
theorem receive_of_ready {r : Registry} (held : w.registry = some r) {w' : Worker}
    (held' : w'.registry = some r) (message : HostMessage) :
    w'.receive message = { w.receive message with worker := w' } := by
  cases message with
  | invalid reason correlation => rfl
  | prepare => simp only [receive, receivePrepare, bringUp, held, held']
  | run request => simp only [receive, receiveRun, held, held']

/-! ## Blocks -/

theorem correlation_of_mem_block {message : HostMessage} {m : Measurement} {e : TaggedEvent}
    (member : e ∈ (w.receive message).block m) : e.correlation = message.correlation := by
  rw [(Emitter.of_mem_sent member).1]
  exact correlation_receive w message

theorem block_prepare (w : Worker) (m : Measurement) :
    ∀ e ∈ (w.receive .prepare).block m, e.event.isPreliminary = true := by
  intro e member
  have sent := (Emitter.of_mem_sent member).2
  simp only [receive, receivePrepare, Receipt.eventsWith, Option.map_none, List.mem_cons] at sent
  cases sent with
  | inl remark => rw [remark]; rfl
  | inr later => exact isPreliminary_of_mem_bringUpEvents _ later

theorem block_invalid (w : Worker) (reason : Decode.Failure) (correlation : Option String)
    (m : Measurement) :
    (w.receive (.invalid reason correlation)).block m =
      [⟨correlation, .executionFailed ("Invalid host message: " ++ reason.message)⟩,
        ⟨correlation, .reset⟩] := by
  refine Emitter.sent_eq_map ?_
  simp [receive, receiveInvalid, Receipt.eventsWith, Event.isDiagnostic, Event.reset]

theorem block_run_of_ready (promised : w.module.promise = .keys expected) {request : RunRequest}
    (ready : (w.receive (.run request)).worker.isReady = true) (m : Measurement) :
    ∃ front terminal, (w.receive (.run request)).block m = front ++
        [⟨request.correlation, terminal⟩,
          ⟨request.correlation, .timing m.elapsed.milliseconds⟩, ⟨request.correlation, .reset⟩] ∧
      terminal.isTerminal = true ∧ ∀ e ∈ front, e.event.isPreliminary = true := by
  obtain ⟨r, -, run, before⟩ | ⟨unready, -⟩ := receive_run_cases promised request
  · have interim := Execution.isInterim_ofProgram r request.program request.initialValue
    obtain ⟨during, reported, interim_during⟩ := exists_runEvents m interim
    have ends := isTerminal_terminalEvent m
      (Execution.ofProgram r request.program request.initialValue).result
    generalize terminalEvent m _ = terminal at reported ends
    have preliminary : ∀ e ∈ (w.receive (.run request)).events ++ during,
        e.isPreliminary = true := by
      intro e member
      rw [List.mem_append] at member
      cases member with
      | inl first => exact before e first
      | inr later => exact Event.isPreliminary_of_isInterim (interim_during e later)
    have shown := isDiagnostic_of_closing ends m
    have all : (w.receive (.run request)).eventsWith m
        ((w.receive (.run request)).run.map PendingRun.execute) =
        ((w.receive (.run request)).events ++ during) ++
          [terminal, .timing m.elapsed.milliseconds, .reset] := by
      rw [run, Option.map_some, Receipt.eventsWith, PendingRun.execute, reported,
        List.append_assoc]
    obtain ⟨front, block, front_preliminary⟩ := Receipt.exists_block preliminary shown all
    rw [correlation_receive] at block
    exact ⟨front, terminal, block, ends, front_preliminary⟩
  · rw [isReady, unready] at ready
    cases ready

theorem block_run_of_not_ready (promised : w.module.promise = .keys expected)
    {request : RunRequest} (unready : (w.receive (.run request)).worker.isReady = false)
    (m : Measurement) :
    (w.receive (.run request)).run = none ∧
      ∃ front, (w.receive (.run request)).block m =
          front ++ [⟨request.correlation, .notReady notReadyMessage⟩] ∧
        ∀ e ∈ front, e.event.isPreliminary = true := by
  obtain ⟨r, ready, -⟩ | ⟨-, run, before, events, preliminary⟩ :=
    receive_run_cases promised request
  · rw [isReady, ready] at unready
    cases unready
  · have shown : ∀ e ∈ [Event.notReady notReadyMessage], e.isDiagnostic = false := by
      simp [Event.isDiagnostic]
    have all : (w.receive (.run request)).eventsWith m
        ((w.receive (.run request)).run.map PendingRun.execute) =
        before ++ [.notReady notReadyMessage] := by
      rw [run, Option.map_none, Receipt.eventsWith, events]
    obtain ⟨front, block, front_preliminary⟩ := Receipt.exists_block preliminary shown all
    rw [correlation_receive] at block
    exact ⟨run, front, block, front_preliminary⟩

theorem block_sameApart {r : Registry} (held : w.registry = some r) {w' : Worker}
    (held' : w'.registry = some r) (alike : w'.diagnostics = w.diagnostics) (message : HostMessage)
    (m m' : Measurement) :
    List.Forall₂ (TaggedEvent.SameApart m m') ((w.receive message).block m)
      ((w'.receive message).block m') := by
  have own : w.receive message = { w.receive message with worker := w } :=
    receive_of_ready held held message
  rw [receive_of_ready held held' message, own, Receipt.block, Receipt.block, Receipt.emitter,
    Receipt.emitter, alike]
  exact Emitter.sent_sameApart (Receipt.eventsWith_sameApart _ m m' _)

end Worker

/-! ## Turns -/

namespace Turn

variable {expected : List String}

theorem isAnswered_prepare (w : Worker) (m : Measurement) : (Turn.mk w .prepare m).IsAnswered := by
  have undelimited : ∀ e ∈ (w.receive .prepare).block m, e.event.isDelimiter = false :=
    fun e member => (Event.isPreliminary_iff.1 (Worker.block_prepare w m e member)).2.2
  refine
    { tagged := fun e member => Worker.correlation_of_mem_block member
      undelimited := fun _ => undelimited
      delimited := fun other => absurd rfl other
      reported := by intro request asked; cases asked
      refused := by intro request asked; cases asked
      idle := ?_
      uniform := fun r held w' held' alike m' =>
        Worker.block_sameApart held held' alike .prepare m m' }
  intro front last words block refusal
  -- A refusal would be a delimiter.
  have member : last ∈ (w.receive .prepare).block m := by
    rw [show (w.receive .prepare).block m = front ++ [last] from block]
    exact List.mem_append_right front (List.mem_singleton_self last)
  have delimits := undelimited last member
  rw [refusal] at delimits
  cases delimits

theorem isAnswered_invalid (w : Worker) (reason : Decode.Failure) (correlation : Option String)
    (m : Measurement) : (Turn.mk w (.invalid reason correlation) m).IsAnswered := by
  have form := Worker.block_invalid w reason correlation m
  refine
    { tagged := fun e member => Worker.correlation_of_mem_block member
      undelimited := by intro asked; cases asked
      delimited := fun _ => ⟨[_], _, form, rfl, ?_⟩
      reported := by intro request asked; cases asked
      refused := by intro request asked; cases asked
      idle := ?_
      uniform := fun r held w' held' alike m' =>
        Worker.block_sameApart held held' alike _ m m' }
  · intro e member
    cases List.mem_singleton.1 member
    rfl
  · intro front last words block refusal
    have same : [_] ++ [⟨correlation, .reset⟩] = front ++ [last] := form.symm.trans block
    cases (List.append_inj' same rfl).2
    cases refusal

theorem isAnswered_run {w : Worker} (promised : w.module.promise = .keys expected)
    (request : RunRequest) (m : Measurement) : (Turn.mk w (.run request) m).IsAnswered := by
  refine
    { tagged := fun e member => Worker.correlation_of_mem_block member
      undelimited := by intro asked; cases asked
      delimited := fun _ => ?_
      reported := fun request' asked ready => ?_
      refused := fun request' asked unready => ?_
      idle := fun front last words block refusal => ?_
      uniform := fun r held w' held' alike m' =>
        Worker.block_sameApart held held' alike _ m m' }
  · cases ready : (w.receive (.run request)).worker.isReady with
    | true =>
      obtain ⟨front, terminal, form, ends, preliminary⟩ :=
        Worker.block_run_of_ready promised ready m
      refine ⟨front ++ [⟨request.correlation, terminal⟩,
        ⟨request.correlation, .timing m.elapsed.milliseconds⟩], ⟨request.correlation, .reset⟩,
        ?_, rfl, ?_⟩
      · rw [List.append_assoc]
        exact form
      · intro e member
        simp only [List.mem_append, List.mem_cons, List.not_mem_nil, or_false] at member
        obtain member | rfl | rfl := member
        · exact (Event.isPreliminary_iff.1 (preliminary e member)).2.2
        · exact Event.isDelimiter_of_isTerminal ends
        · rfl
    | false =>
      obtain ⟨-, front, form, preliminary⟩ := Worker.block_run_of_not_ready promised ready m
      refine ⟨front, ⟨request.correlation, .notReady Worker.notReadyMessage⟩, form, rfl, ?_⟩
      intro e member
      exact (Event.isPreliminary_iff.1 (preliminary e member)).2.2
  · obtain ⟨front, terminal, form, ends, preliminary⟩ := Worker.block_run_of_ready promised ready m
    refine ⟨front, _, _, _, form, ends, rfl, rfl, ?_⟩
    intro e member
    obtain ⟨unended, untimed, -⟩ := Event.isPreliminary_iff.1 (preliminary e member)
    exact ⟨unended, untimed⟩
  · obtain ⟨-, front, form, -⟩ := Worker.block_run_of_not_ready promised unready m
    exact ⟨front, _, form, rfl⟩
  · cases ready : (w.receive (.run request)).worker.isReady with
    | true =>
      -- The answer ends with the reset, so it is no refusal.
      obtain ⟨front', terminal, form, -⟩ := Worker.block_run_of_ready promised ready m
      rw [List.append_cons, List.append_cons] at form
      have same := form.symm.trans block
      cases (List.append_inj' same rfl).2
      cases refusal
    | false =>
      obtain ⟨nothing, front', form, preliminary⟩ :=
        Worker.block_run_of_not_ready promised ready m
      have same := form.symm.trans block
      refine ⟨?_, ?_⟩
      · simp only [applications, receipt, nothing]
      · rw [← (List.append_inj' same rfl).1]
        exact fun e member => (Event.isPreliminary_iff.1 (preliminary e member)).1

/-- In every turn of a worker whose module tells its promise, the message is answered in form. -/
theorem isAnswered {t : Turn} (promised : t.before.module.promise = .keys expected) :
    t.IsAnswered := by
  obtain ⟨w, message, m⟩ := t
  cases message with
  | prepare => exact isAnswered_prepare w m
  | run request => exact isAnswered_run promised request m
  | invalid reason correlation => exact isAnswered_invalid w reason correlation m

end Turn

end RecipeEngine
