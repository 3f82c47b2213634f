import RecipeEngine.Proofs.Message.Emitter
import RecipeEngine.Proofs.Run.Outcome
import RecipeEngine.Proofs.Run.Report

/-!
# How a run is reported

A run breaks down only if a function does that it applies (`exists_breakdown`).  Any other run ends
with a value or with a failure, and what it sends says so: behind remarks and the progress of loops
come one terminal event, the time and the reset.
-/

namespace RecipeEngine.Execution

open Program

/-! ## Breakdowns -/

/-- No function breaks down that is applied in the course of an execution. -/
def IsUnbroken {α : Type} (r : Registry) (x : Execution α) : Prop :=
  ∀ key input f, (key, input) ∈ x.applications → r.lookup key = some f →
    ∀ words, f input ≠ .breakdown words

theorem breakdown_of_ofApplication {r : Registry} {a : Application} {v : Json} {words : String}
    (broke : (ofApplication r a v).result = .error (.brokeDown words)) :
    ∃ f, (a.key, v) ∈ (ofApplication r a v).applications ∧ r.lookup a.key = some f ∧
      f v = .breakdown words := by
  cases found : r.lookup a.key with
  | none =>
    rw [ofApplication_of_missing v found] at broke
    cases broke
  | some f =>
    rw [ofApplication_of_found v found] at broke ⊢
    refine ⟨f, List.mem_singleton_self _, rfl, ?_⟩
    cases output : f v with
    | value w => simp [output] at broke
    | failure failure => simp [output] at broke
    | breakdown words' =>
      simp only [output, Except.error.injEq, Halt.brokeDown.injEq] at broke
      rw [broke]

theorem breakdown_of_ofTasks {r : Registry} {ts : List Task} {v : Json} {words : String}
    (broke : (ofTasks r ts v).result = .error (.brokeDown words)) :
    ∃ key input f, (key, input) ∈ (ofTasks r ts v).applications ∧ r.lookup key = some f ∧
      f input = .breakdown words := by
  induction ts generalizing v with
  | nil => cases broke
  | cons t ts ih =>
    cases t with
    | announce i => exact ih broke
    | apply a =>
      rw [ofTasks_cons, ofTask] at broke ⊢
      cases goes : (ofApplication r a v).result with
      | ok u =>
        rw [(bind_of_ok goes).2] at broke
        obtain ⟨key, input, f, applied, found, breaks⟩ := ih broke
        refine ⟨key, input, f, ?_, found, breaks⟩
        rw [applications_bind_of_ok goes]
        exact List.mem_append_right _ applied
      | error reason =>
        rw [(bind_of_error goes).2] at broke
        cases broke
        obtain ⟨f, applied, found, breaks⟩ := breakdown_of_ofApplication goes
        refine ⟨a.key, v, f, ?_, found, breaks⟩
        rwa [applications_bind_of_error goes]

/-- A run breaks down only if a function that it applies does. -/
theorem exists_breakdown {r : Registry} {p : Program} {v : Json} {words : String}
    (broke : (ofProgram r p v).result = .error (.brokeDown words)) :
    ∃ key input f, (key, input) ∈ (ofProgram r p v).applications ∧ r.lookup key = some f ∧
      f input = .breakdown words := by
  by_cases usable : r.isUsable = true
  · obtain ⟨bs, rest, rfl, stuck⟩ := exists_ofBlocks_append p
    cases gone : (ofTasks r (plan bs) v).result with
    | error reason =>
      rw [ofProgram_of_halt usable stuck gone, result_remark_bind, gone] at broke
      cases broke
      rw [ofProgram_of_halt usable stuck gone, applications_remark_bind]
      exact breakdown_of_ofTasks gone
    | ok w =>
      rcases ofProgram_cases usable bs stuck v with ⟨-, run⟩ | ⟨e, -, run⟩
      · rw [run, result_remark_bind, gone] at broke
        cases broke
      · rw [run, result_remark_bind, (bind_of_ok gone).2] at broke
        cases broke
  · rw [ofProgram_of_unusable usable] at broke
    cases broke

/-! ## What an unbroken run sends -/

/-- What a run sends that does not break down: remarks and the progress of loops, and then the one
event that tells its result, the time and the reset. -/
theorem sends_result_last (r : Registry) (p : Program) (v : Json) (emitter : Emitter)
    (m : Measurement) (unbroken : (ofProgram r p v).IsUnbroken r) :
    ∃ front terminal,
      emitter.sent (runEvents m (ofProgram r p v)) =
        (front ++ [terminal, .timing m.elapsed.milliseconds, .reset]).map emitter.tag ∧
      (∀ e ∈ front, e.isInterim = true) ∧ terminal.isTerminal = true ∧
      (∀ w, terminal = .finalResult w ↔ (ofProgram r p v).result = .ok w) ∧
      (∀ message, terminal = .executionFailed message ↔
        ∃ e, (ofProgram r p v).result = .error (.failed e) ∧ message = e.message) ∧
      (∀ e ∈ front ++ [terminal, .timing m.elapsed.milliseconds], e.isReset = false) ∧
      ∀ e ∈ emitter.sent (runEvents m (ofProgram r p v)), e.correlation = emitter.correlation := by
  obtain ⟨front, events, interim⟩ := exists_runEvents m (isInterim_ofProgram r p v)
  have ends := isTerminal_terminalEvent m (ofProgram r p v).result
  have kept : ∀ e ∈ front.filter emitter.sends, e.isInterim = true :=
    fun e member => interim e (List.mem_filter.1 member).1
  refine ⟨front.filter emitter.sends, terminalEvent m (ofProgram r p v).result, ?_, kept, ends,
    ?_, ?_, ?_, fun e member => (Emitter.of_mem_sent member).1⟩
  · rw [events, Emitter.sent_append, Emitter.sent_eq_map (isDiagnostic_of_closing ends m),
      List.map_append]
    rfl
  · intro w
    cases result : (ofProgram r p v).result with
    | ok u => simp [terminalEvent]
    | error reason => cases reason <;> simp [terminalEvent]
  · intro message
    cases result : (ofProgram r p v).result with
    | ok u => simp [terminalEvent]
    | error reason =>
      cases reason with
      | failed e => simp [terminalEvent, eq_comm]
      | brokeDown words =>
        obtain ⟨key, input, f, applied, found, breaks⟩ := exists_breakdown result
        exact absurd breaks (unbroken key input f applied found words)
  · intro e member
    simp only [List.mem_append, List.mem_cons, List.not_mem_nil, or_false] at member
    obtain member | rfl | rfl := member
    · exact Event.isReset_of_isInterim (kept e member)
    · exact Event.isReset_of_isTerminal ends
    · rfl

theorem isUnbroken_boxing (x : Execution Json) : x.IsUnbroken boxing := by
  intro key input f _ found words
  -- A single function is registered, and it gives a value or refuses.
  change Text.Entries.find? key (Text.Entries.insert "box" boxOnce []) = some f at found
  rw [Text.Entries.find?_insert] at found
  split at found
  · cases found
    cases input <;> simp [boxOnce]
  · cases found

theorem sends_result_last_boxing :
    (ofProgram boxing boxingTwice .null).IsUnbroken boxing ∧
      ∃ front terminal,
        (Emitter.mk (some "id") true).sent
            (runEvents ⟨.ofSeconds 1, "1"⟩ (ofProgram boxing boxingTwice .null)) =
          (front ++ [terminal, .timing (Duration.ofSeconds 1).milliseconds, .reset]).map
            (Emitter.mk (some "id") true).tag ∧
        (∀ e ∈ front, e.isInterim = true) ∧
        terminal = .executionFailed
          (ExecutionError.loopIteration "a" 2 3
            (.operationFailed "b" 1 1 "boxed twice")).message := by
  have unbroken := isUnbroken_boxing (ofProgram boxing boxingTwice .null)
  obtain ⟨front, terminal, sent, interim, -, -, failed, -⟩ :=
    sends_result_last boxing boxingTwice .null ⟨some "id", true⟩ ⟨.ofSeconds 1, "1"⟩ unbroken
  exact ⟨unbroken, front, terminal, sent, interim, (failed _).2 ⟨_, rfl, rfl⟩⟩

end RecipeEngine.Execution
