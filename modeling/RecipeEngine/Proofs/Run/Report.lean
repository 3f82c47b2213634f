import RecipeEngine.Proofs.Run.Feed
import RecipeEngine.Proofs.Run.Program
import RecipeEngine.Run.Report

/-!
# What a run sends

As long as a run goes on it sends remarks and the progress of its loops, and nothing else
(`isInterim_ofProgram`).  However it ends, one terminal event, the time that it took and the reset
close what it sends (`exists_runEvents`).
-/

namespace RecipeEngine

namespace Event

def isTiming : Event → Bool
  | .timing _ => true
  | _ => false

/-- Whether an event marks the end of the answer to a message. -/
def isDelimiter : Event → Bool
  | .notReady _ => true
  | e => e.isReset

/-- Whether an event may be sent as long as a run goes on: a remark, or the progress of a loop. -/
def isInterim : Event → Bool
  | .diagnostic _ => true
  | .progress (some _) _ _ => true
  | _ => false

/-- Whether an event has no part in closing an answer. -/
def isPreliminary (e : Event) : Bool := !e.isTerminal && !e.isTiming && !e.isDelimiter

theorem isPreliminary_iff {e : Event} :
    e.isPreliminary = true ↔ e.isTerminal = false ∧ e.isTiming = false ∧ e.isDelimiter = false := by
  simp [isPreliminary, and_assoc]

theorem isPreliminary_of_isInterim {e : Event} (interim : e.isInterim = true) :
    e.isPreliminary = true := by
  cases e with
  | diagnostic message => rfl
  | progress identifier current total =>
    cases identifier with
    | some identifier => rfl
    | none => cases interim
  | ready _ | bringUpFailed _ | notReady _ | finalResult _ | executionFailed _ | timing _ =>
    cases interim

theorem isReset_of_isInterim {e : Event} (interim : e.isInterim = true) : e.isReset = false := by
  have delimits := (isPreliminary_iff.1 (isPreliminary_of_isInterim interim)).2.2
  cases e with
  | notReady message => cases interim
  | _ => exact delimits

theorem isReset_of_isTerminal {e : Event} (terminal : e.isTerminal = true) :
    e.isReset = false := by
  cases e <;> first | rfl | cases terminal

theorem isDiagnostic_of_isTerminal {e : Event} (terminal : e.isTerminal = true) :
    e.isDiagnostic = false := by
  cases e <;> first | rfl | cases terminal

theorem isDelimiter_of_isTerminal {e : Event} (terminal : e.isTerminal = true) :
    e.isDelimiter = false := by
  cases e <;> first | rfl | cases terminal

end Event

namespace Execution

variable {α β : Type}

def IsInterim (x : Execution α) : Prop := ∀ e ∈ x.events, e.isInterim = true

theorem isInterim_pure (a : α) : (pure a : Execution α).IsInterim := by
  intro e sent
  cases sent

theorem isInterim_fail (e : ExecutionError) : (fail e : Execution α).IsInterim := by
  intro e sent
  cases sent

theorem IsInterim.bind {x : Execution α} {f : α → Execution β} (first : x.IsInterim)
    (second : ∀ a, (f a).IsInterim) : (x >>= f).IsInterim := by
  intro e sent
  cases ends : x.result with
  | error reason =>
    rw [events, (bind_of_error ends).1] at sent
    exact first e sent
  | ok a =>
    rw [events, (bind_of_ok ends).1, List.filterMap_append, List.mem_append] at sent
    cases sent with
    | inl sent => exact first e sent
    | inr sent => exact second a e sent

theorem isInterim_remark (message : String) : (remark message).IsInterim := by
  intro e sent
  cases List.mem_singleton.1 sent
  rfl

theorem isInterim_ofTask (r : Registry) (v : Json) (t : Task) : (ofTask r v t).IsInterim := by
  intro e sent
  cases t with
  | announce i =>
    cases List.mem_singleton.1 sent
    rfl
  | apply a =>
    rw [ofTask] at sent
    cases found : r.lookup a.key with
    | none =>
      rw [ofApplication_of_missing v found] at sent
      cases sent
    | some f =>
      rw [ofApplication_of_found v found] at sent
      cases List.mem_singleton.1 sent
      rfl

theorem isInterim_ofTasks (r : Registry) (ts : List Task) (v : Json) :
    (ofTasks r ts v).IsInterim := by
  induction ts generalizing v with
  | nil => exact isInterim_pure v
  | cons t ts ih => exact (isInterim_ofTask r v t).bind ih

/-- As long as a run goes on it sends interim events only. -/
theorem isInterim_ofProgram (r : Registry) (p : Program) (v : Json) :
    (ofProgram r p v).IsInterim := by
  by_cases usable : r.isUsable = true
  · obtain ⟨bs, rest, rfl, stuck⟩ := Program.exists_ofBlocks_append p
    have planned := isInterim_ofTasks r (plan bs) v
    rcases ofProgram_cases usable bs stuck v with ⟨-, run⟩ | ⟨e, -, run⟩
    · rw [run]
      exact (isInterim_remark _).bind fun _ => planned
    · rw [run]
      exact (isInterim_remark _).bind fun _ => planned.bind fun _ => isInterim_fail e
  · rw [ofProgram_of_unusable usable]
    exact isInterim_fail _

end Execution

/-- The event that tells how a run has ended. -/
def terminalEvent (m : Measurement) : Except Halt Json → Event
  | .ok v => .finalResult v
  | .error (.failed e) => .executionFailed e.message
  | .error (.brokeDown words) => .executionFailed (abortedMessage m.task words)

theorem isTerminal_terminalEvent (m : Measurement) (result : Except Halt Json) :
    (terminalEvent m result).isTerminal = true := by
  cases result with
  | ok v => rfl
  | error reason => cases reason <;> rfl

theorem isDiagnostic_of_closing {terminal : Event} (ends : terminal.isTerminal = true)
    (m : Measurement) :
    ∀ e ∈ [terminal, .timing m.elapsed.milliseconds, .reset], e.isDiagnostic = false := by
  intro e member
  simp only [List.mem_cons, List.not_mem_nil, or_false] at member
  obtain rfl | rfl | rfl := member
  · exact Event.isDiagnostic_of_isTerminal ends
  · rfl
  · rfl

theorem exists_outcomeEvents (m : Measurement) (result : Except Halt Json) :
    ∃ front, outcomeEvents m result = front ++ [terminalEvent m result] ∧
      ∀ e ∈ front, e.isInterim = true := by
  cases result with
  | ok v =>
    refine ⟨[.diagnostic "Recipe processing completed"], rfl, ?_⟩
    intro e member
    cases List.mem_singleton.1 member
    rfl
  | error reason =>
    cases reason with
    | failed e =>
      refine ⟨[.diagnostic ("Recipe processing failed: " ++ e.message)], rfl, ?_⟩
      intro e member
      cases List.mem_singleton.1 member
      rfl
    | brokeDown words =>
      refine ⟨[], rfl, ?_⟩
      intro e member
      cases member

/-- The events of a run: interim ones, the one that tells how it has ended, the time and the
reset. -/
theorem exists_runEvents (m : Measurement) {x : Execution Json} (interim : x.IsInterim) :
    ∃ front, runEvents m x =
        front ++ [terminalEvent m x.result, .timing m.elapsed.milliseconds, .reset] ∧
      ∀ e ∈ front, e.isInterim = true := by
  obtain ⟨remarks, outcome, remarked⟩ := exists_outcomeEvents m x.result
  refine ⟨x.events ++ remarks, ?_, ?_⟩
  · rw [runEvents, outcome, closingEvents]
    simp only [List.append_assoc, List.cons_append, List.nil_append]
  · intro e member
    rw [List.mem_append] at member
    cases member with
    | inl during => exact interim e during
    | inr after => exact remarked e after

end RecipeEngine
