import RecipeEngine.Proofs.Message.Host
import RecipeEngine.Proofs.Run.Unready
import RecipeEngine.Proofs.Worker.Answer
import RecipeEngine.Proofs.Worker.BringUp

/-!
# The registry in a session

A worker has no registry at first.  In each turn that has to do with a registry it tries once to
bring one up, until it has one; that registry it keeps for good (`Worker.KeepsRegistry`).  Nothing
is applied before the keys of the registry have been announced, and a run fails for want of a
usable registry exactly if the registry that is held is empty.
-/

namespace RecipeEngine

/-! ## Receipts -/

namespace Worker

variable {w : Worker} {r : Registry} {message : HostMessage}

theorem worker_receive (valid : message.isValid = true) :
    (w.receive message).worker = w.bringUp.1 := by
  cases message with
  | prepare => rfl
  | invalid reason correlation => cases valid
  | run request =>
    simp only [receive, receiveRun]
    cases held : w.registry with
    | some r => simp only [bringUp, held]
    | none => rfl

theorem worker_receive_of_held (held : w.registry = some r) (message : HostMessage) :
    (w.receive message).worker = w :=
  congrArg Receipt.worker (receive_of_ready held held message)

/-- What a receipt says: remarks, a refusal, how bringing up a registry has gone, or that the
message is not valid. -/
theorem of_mem_events {e : Event} (member : e ∈ (w.receive message).events) :
    e.isDiagnostic = true ∨ (∃ words, e = .notReady words) ∨
      (message.isValid = true ∧ e ∈ bringUpEvents w.bringUp.2) ∨
      (∃ reason : Decode.Failure,
        e = .executionFailed ("Invalid host message: " ++ reason.message)) ∨
      e = .reset := by
  cases message with
  | invalid reason correlation =>
    simp only [receive, receiveInvalid, List.mem_cons, List.not_mem_nil, or_false] at member
    obtain rfl | rfl := member
    · exact .inr (.inr (.inr (.inl ⟨reason, rfl⟩)))
    · exact .inr (.inr (.inr (.inr rfl)))
  | prepare =>
    cases List.mem_cons.1 member with
    | inl first => exact .inl (first ▸ rfl)
    | inr later => exact .inr (.inr (.inl ⟨rfl, later⟩))
  | run request =>
    simp only [receive, receiveRun] at member
    cases held : w.registry with
    | some r =>
      rw [held] at member
      cases List.mem_singleton.1 member
      exact .inl rfl
    | none =>
      simp only [held] at member
      cases outcome : w.bringUp.2 with
      | ready r =>
        simp only [outcome, List.mem_cons] at member
        obtain rfl | rfl | member := member
        · exact .inl rfl
        · exact .inl rfl
        · exact .inr (.inr (.inl ⟨rfl, member⟩))
      | brokeDown words =>
        simp only [outcome, List.mem_cons] at member
        obtain rfl | rfl | member := member
        · exact .inl rfl
        · exact .inl rfl
        · exact .inr (.inr (.inl ⟨rfl, member⟩))
      | failed e =>
        simp only [outcome, List.mem_append, List.mem_cons, List.not_mem_nil, or_false] at member
        obtain (rfl | rfl | member) | rfl := member
        · exact .inl rfl
        · exact .inl rfl
        · exact .inr (.inr (.inl ⟨rfl, member⟩))
        · exact .inr (.inl ⟨_, rfl⟩)

theorem ready_mem_bringUpEvents {outcome : BringUp} {keys : List String} :
    .ready keys ∈ bringUpEvents outcome ↔ ∃ r, outcome = .ready r ∧ keys = r.keys := by
  cases outcome <;> simp [bringUpEvents]

/-- The keys that are announced are those of the registry that is held. -/
theorem registry_of_ready_mem {keys : List String}
    (member : .ready keys ∈ (w.receive message).events) :
    ∃ r, (w.receive message).worker.registry = some r ∧ keys = r.keys := by
  obtain remark | ⟨words, refusal⟩ | ⟨valid, reported⟩ | ⟨reason, invalid⟩ | reset :=
    of_mem_events member
  · cases remark
  · cases refusal
  · obtain ⟨r, ready, same⟩ := ready_mem_bringUpEvents.1 reported
    rw [worker_receive valid]
    exact ⟨r, registry_bringUp.2 ready, same⟩
  · cases invalid
  · cases reset

/-- A registry that is brought up is announced at once. -/
theorem ready_mem_events (unheld : w.registry = none)
    (brought : (w.receive message).worker.registry = some r) :
    .ready r.keys ∈ (w.receive message).events := by
  cases message with
  | invalid reason correlation =>
    rw [show (w.receive (.invalid reason correlation)).worker = w from rfl, unheld] at brought
    cases brought
  | prepare =>
    have ready := registry_bringUp.1 brought
    exact List.mem_cons_of_mem _ (ready_mem_bringUpEvents.2 ⟨r, ready, rfl⟩)
  | run request =>
    rw [worker_receive rfl] at brought
    have ready := registry_bringUp.1 brought
    simp [receive, receiveRun, unheld, ready, bringUpEvents]

/-- A run goes by the registry that is held. -/
theorem registry_of_run {run : PendingRun} (runs : (w.receive message).run = some run) :
    (w.receive message).worker.registry = some run.registry := by
  cases message with
  | prepare => cases runs
  | invalid reason correlation => cases runs
  | run request =>
    rw [worker_receive rfl, registry_bringUp]
    simp only [receive, receiveRun] at runs
    cases held : w.registry with
    | some r =>
      simp only [held] at runs
      cases runs
      simp only [bringUp, held]
    | none =>
      simp only [held] at runs
      cases outcome : w.bringUp.2 with
      | ready r =>
        simp only [outcome] at runs
        cases runs
        rfl
      | failed e => simp [outcome] at runs
      | brokeDown words => simp [outcome] at runs

theorem run_of_registry {request : RunRequest}
    (held : (w.receive (.run request)).worker.registry = some r) :
    (w.receive (.run request)).run = some ⟨r, request.program, request.initialValue⟩ := by
  rw [worker_receive rfl, registry_bringUp] at held
  simp only [receive, receiveRun]
  cases before : w.registry with
  | some r' =>
    simp only [bringUp, before, BringUp.ready.injEq] at held
    rw [held]
  | none => simp only [held]

/-! ## What every turn keeps -/

/-- What is true of a worker and kept by every turn is true of it at the beginning of each. -/
theorem before_of_mem_turns {P : Worker → Prop}
    (step : ∀ w message, P w → P (w.receive message).worker) {measure : Nat → Measurement}
    {messages : List HostMessage} {place : Nat} (holds : P w) {t : Turn}
    (member : t ∈ w.turns measure messages place) : P t.before := by
  induction messages generalizing w place with
  | nil => cases member
  | cons message rest ih =>
    rw [turns, List.mem_cons] at member
    cases member with
    | inl first => rw [first]; exact holds
    | inr later => exact ih (step w message holds) later

/-- What is true of every worker that a new one comes to be: its module and its patience stay, and
any registry that it holds fulfils the promise of the module. -/
structure IsSound (m : FunctionModule) (limit : Duration) (w : Worker) : Prop where
  module : w.module = m
  limit : w.limit = limit
  fulfils : ∀ r, w.registry = some r → r.Fulfils m

theorem isSound_new (m : FunctionModule) (limit : Duration) (diagnostics : Bool) :
    (new m limit diagnostics).IsSound m limit where
  module := rfl
  limit := rfl
  fulfils := by intro r held; cases held

theorem IsSound.bringUp {m : FunctionModule} {limit : Duration} (sound : w.IsSound m limit) :
    w.bringUp.1.IsSound m limit where
  module := (settings_bringUp w).1.trans sound.module
  limit := (limit_bringUp w).trans sound.limit
  fulfils := by
    intro r brought
    cases held : w.registry with
    | some r' =>
      simp only [Worker.bringUp, held] at brought
      exact sound.fulfils r (held.trans brought)
    | none =>
      rw [(bringUp_of_unheld held).2, sound.module] at brought
      exact BringUp.fulfils_of_attempt brought

theorem IsSound.receive {m : FunctionModule} {limit : Duration} (sound : w.IsSound m limit)
    (message : HostMessage) : (w.receive message).worker.IsSound m limit := by
  cases message with
  | invalid reason correlation => exact sound
  | prepare => exact sound.bringUp
  | run request =>
    rw [worker_receive rfl]
    exact sound.bringUp

/-- Once a registry is held, no turn changes the worker. -/
theorem after_of_held {measure : Nat → Measurement} {messages : List HostMessage} {place : Nat}
    (held : w.registry = some r) {t : Turn} (member : t ∈ w.turns measure messages place) :
    t.after = w := by
  have before : t.before = w := by
    refine before_of_mem_turns (P := (· = w)) ?_ rfl member
    rintro w' message rfl
    exact worker_receive_of_held held message
  rw [Turn.after, Turn.receipt, before, worker_receive_of_held held]

theorem later_turns {measure : Nat → Measurement} {messages : List HostMessage} {place : Nat}
    {past later : List Turn} {t : Turn}
    (split : w.turns measure messages place = past ++ t :: later) :
    ∃ rest place', later = t.after.turns measure rest place' := by
  induction past generalizing w messages place with
  | nil =>
    cases messages with
    | nil => cases split
    | cons message rest =>
      simp only [turns, List.nil_append, List.cons.injEq] at split
      obtain ⟨rfl, rfl⟩ := split
      exact ⟨rest, place + 1, rfl⟩
  | cons t' past ih =>
    cases messages with
    | nil => cases split
    | cons message rest =>
      simp only [turns, List.cons_append, List.cons.injEq] at split
      exact ih split.2

/-! ## What a turn says of its registry -/

theorem unusable_not_mem_events (w : Worker) (message : HostMessage) :
    .unusable ∉ (w.receive message).events := by
  intro member
  obtain remark | ⟨words, refusal⟩ | ⟨-, reported⟩ | ⟨reason, invalid⟩ | reset :=
    of_mem_events member
  · cases remark
  · cases refusal
  · cases isPreliminary_of_mem_bringUpEvents _ reported
  · have words : "Function registry is not ready" = "Invalid host message: " ++ reason.message :=
      Event.executionFailed.inj invalid
    have letters := congrArg String.toList words
    simp [String.toList_append] at letters
  · cases reset

end Worker

namespace Turn

variable {t : Turn}

theorem exists_mem_block_iff {e : Event} (shown : e.isDiagnostic = false) :
    (∃ e' ∈ t.block, e'.event = e) ↔
      e ∈ t.receipt.events ∨
        ∃ run, t.receipt.run = some run ∧ e ∈ runEvents t.measurement run.execute := by
  rw [block, Receipt.block, Emitter.exists_mem_sent_iff shown]
  cases t.receipt.run with
  | none => simp [Receipt.eventsWith]
  | some run => simp [Receipt.eventsWith]

/-- The keys that a turn announces are those of the registry that is held at its end. -/
theorem registry_of_announced {keys : List String}
    (announced : ∃ e ∈ t.block, e.event = .ready keys) :
    ∃ r, t.after.registry = some r ∧ keys = r.keys := by
  obtain received | ⟨run, -, executed⟩ := (exists_mem_block_iff rfl).1 announced
  · exact Worker.registry_of_ready_mem received
  · -- A run announces nothing.
    obtain ⟨front, events, interim⟩ := exists_runEvents t.measurement
      (Execution.isInterim_ofProgram run.registry run.program run.initialValue)
    have ends := isTerminal_terminalEvent t.measurement run.execute.result
    rw [PendingRun.execute, events, List.mem_append] at executed
    obtain early | closing := executed
    · cases interim _ early
    · simp only [List.mem_cons, List.not_mem_nil, or_false] at closing
      obtain same | same | same := closing
      · rw [PendingRun.execute, ← same] at ends
        cases ends
      · cases same
      · cases same

theorem result_eq_notReady_iff {run : PendingRun} (ready : run.registry.isReady = true) :
    run.execute.result = .error (.failed .registryNotReady) ↔
      ∀ key, run.registry.lookup key = none := by
  rw [PendingRun.execute, Execution.result_eq_notReady_iff, Registry.isUsable, ready,
    Bool.true_and, Bool.not_eq_false', Registry.isEmpty_iff]

/-- A run is said to lack a usable registry exactly if the registry that is held is empty. -/
theorem unusable_iff (ready : ∀ r, t.after.registry = some r → r.isReady = true) :
    (∃ e ∈ t.block, e.event = .unusable) ↔
      ∃ request r, t.message = .run request ∧ t.after.registry = some r ∧
        ∀ key, r.lookup key = none := by
  have told (run : PendingRun) : .unusable ∈ runEvents t.measurement run.execute ↔
      run.execute.result = .error (.failed .registryNotReady) :=
    mem_runEvents_unusable_iff
      (Execution.isInterim_ofProgram run.registry run.program run.initialValue)
  rw [exists_mem_block_iff rfl]
  constructor
  · rintro (received | ⟨run, runs, executed⟩)
    · exact absurd received (Worker.unusable_not_mem_events t.before t.message)
    · have held := Worker.registry_of_run runs
      have empty := (result_eq_notReady_iff (ready _ held)).1 ((told run).1 executed)
      cases asked : t.message with
      | run request => exact ⟨request, run.registry, rfl, held, empty⟩
      | prepare => simp [receipt, asked, Worker.receive, Worker.receivePrepare] at runs
      | invalid reason correlation =>
        simp [receipt, asked, Worker.receive, Worker.receiveInvalid] at runs
  · rintro ⟨request, r, asked, held, empty⟩
    have received := held
    rw [after, receipt, asked] at received
    have runs := Worker.run_of_registry received
    rw [← asked] at runs
    exact .inr ⟨_, runs, (told _).2 ((result_eq_notReady_iff (ready r held)).2 empty)⟩

end Turn

end RecipeEngine
