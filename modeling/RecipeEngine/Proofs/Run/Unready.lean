import RecipeEngine.Proofs.Run.Outcome
import RecipeEngine.Proofs.Run.Report

/-!
# Runs without a usable registry

A run fails because its registry is not ready exactly if the registry is of no use for runs
(`result_eq_notReady_iff`).  In what a run sends this can be seen from the words of one event: no
other failure and no breakdown is told in these words (`mem_runEvents_unusable_iff`).
-/

namespace RecipeEngine

open Program

/-! ## The result -/

theorem Application.Refusal.wrap_ne_notReady {r : Registry} {a : Application} {v : Json}
    {cause : ExecutionError} (refusal : a.Refusal r v cause) :
    Iteration.wrap a.loop cause ≠ .registryNotReady := by
  cases a.loop with
  | none => cases refusal <;> exact ExecutionError.noConfusion
  | some i => exact ExecutionError.noConfusion

namespace Execution

theorem result_eq_notReady_iff {r : Registry} {p : Program} {v : Json} :
    (ofProgram r p v).result = .error (.failed .registryNotReady) ↔ r.isUsable = false := by
  constructor
  · intro failed
    cases usable : r.isUsable with
    | false => rfl
    | true =>
      -- A run that begins fails with a refusal or with a defect, and neither is this failure.
      obtain ⟨bs, rest, rfl, stuck⟩ := exists_ofBlocks_append p
      cases gone : (ofTasks r (plan bs) v).result with
      | error reason =>
        rw [ofProgram_of_halt usable stuck gone, result_remark_bind, gone] at failed
        cases failed
        obtain ⟨a, u, cause, refusal, same⟩ := exists_refusal_of_failed gone
        exact absurd same.symm refusal.wrap_ne_notReady
      | ok w =>
        rcases ofProgram_cases usable bs stuck v with ⟨-, run⟩ | ⟨e, defect, run⟩
        · rw [run, result_remark_bind, gone] at failed
          cases failed
        · rw [run, result_remark_bind, (bind_of_ok gone).2] at failed
          cases failed
          cases defect
  · intro useless
    rw [ofProgram, useless]
    rfl

end Execution

/-! ## The words -/

theorem ExecutionError.eq_of_message_eq {e : ExecutionError}
    (same : e.message = "Function registry is not ready") : e = .registryNotReady := by
  cases e with
  | registryNotReady => rfl
  | _ =>
    -- Every other message has a beginning of its own.
    unfold message at same
    have letters := congrArg String.toList same
    simp [String.toList_append] at letters

theorem abortedMessage_ne (task words : String) :
    abortedMessage task words ≠ "Function registry is not ready" := by
  intro same
  unfold abortedMessage at same
  have letters := congrArg String.toList same
  simp [String.toList_append] at letters

/-- The event that tells that a run has failed for want of a usable registry. -/
def Event.unusable : Event := .executionFailed ExecutionError.registryNotReady.message

theorem terminalEvent_eq_unusable_iff {m : Measurement} {result : Except Halt Json} :
    terminalEvent m result = .unusable ↔ result = .error (.failed .registryNotReady) := by
  constructor
  · intro told
    cases result with
    | ok v => cases told
    | error reason =>
      cases reason with
      | failed e => rw [ExecutionError.eq_of_message_eq (Event.executionFailed.inj told)]
      | brokeDown words => exact absurd (Event.executionFailed.inj told) (abortedMessage_ne _ _)
  · rintro rfl
    rfl

theorem mem_runEvents_unusable_iff {m : Measurement} {x : Execution Json} (interim : x.IsInterim) :
    .unusable ∈ runEvents m x ↔ x.result = .error (.failed .registryNotReady) := by
  obtain ⟨front, events, before⟩ := exists_runEvents m interim
  rw [events, ← terminalEvent_eq_unusable_iff, List.mem_append]
  constructor
  · rintro (early | closing)
    · cases before _ early
    · simpa [Event.unusable, Event.reset, eq_comm] using closing
  · intro told
    rw [told]
    exact .inr (List.mem_cons_self ..)

end RecipeEngine
