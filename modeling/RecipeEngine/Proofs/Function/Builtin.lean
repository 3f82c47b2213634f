import RecipeEngine.Proofs.Run.Feed
import RecipeEngine.Proofs.Run.Program
import RecipeEngine.Proofs.Worker.BringUp

/-!
# The built-in functions at work

The built-in module brings up its registry with every start (`BringUp.attempt_builtin`).  Its
functions give strings only, so that a run over them ends with a string or with the value that it
began with (`Builtin.result_cases`).
-/

namespace RecipeEngine

namespace Builtin

/-- The registry of the built-in functions, ready for runs. -/
def registry : Registry := Registry.builtin.markReady

theorem isUsable_registry : registry.isUsable = true := rfl

theorem eq_string_of_onText {f : String → Except Refusal String} {v w : Json}
    (gives : onText f v = .value w) : ∃ t, w = .string t := by
  cases v with
  | string s =>
    cases output : f s with
    | ok t =>
      simp only [onText, output, Outcome.value.injEq] at gives
      exact ⟨t, gives.symm⟩
    | error refusal => simp [onText, output] at gives
  | null => cases gives
  | boolean => cases gives
  | number => cases gives
  | array => cases gives
  | object => cases gives

theorem eq_string_of_lookup {key : String} {f : Function} {v w : Json}
    (found : registry.lookup key = some f) (gives : f v = .value w) : ∃ t, w = .string t := by
  simp only [registry, Registry.builtin, Registry.markReady, Registry.register, Registry.lookup,
    Registry.empty, Text.Entries.find?_insert, Text.Entries.find?_nil] at found
  split at found
  next =>
    cases found
    exact eq_string_of_onText gives
  next =>
    split at found
    next =>
      cases found
      exact eq_string_of_onText gives
    next => cases found

end Builtin

theorem BringUp.attempt_builtin (limit : Duration) (start : Nat) :
    BringUp.attempt .builtin limit start = .ready Builtin.registry := by
  have complete : ∀ key ∈ [Builtin.encodeKey, Builtin.decodeKey],
      Registry.builtin.has key = true := by decide
  have accepts := acceptRegistry_eq_ok_iff.2 ⟨complete, rfl⟩
  simp only [attempt, FunctionModule.builtin, ofRegistry, accepts]
  rfl

/-! ## Runs -/

/-- What every function gives on, a value that is fed through applications keeps. -/
theorem feed_preserves {r : Registry} {motive : Json → Prop}
    (gives : ∀ key f v w, r.lookup key = some f → motive v → f v = .value w → motive w)
    {as : List Application} {v w : Json} (holds : motive v) (fed : feed r as v = some w) :
    motive w := by
  induction as generalizing v with
  | nil =>
    cases fed
    exact holds
  | cons a as ih =>
    rw [feed_cons, Option.bind_eq_some_iff] at fed
    obtain ⟨u, output, fed⟩ := fed
    obtain ⟨f, found, gave⟩ := Application.output?_eq_some_iff.1 output
    exact ih (gives _ f v u found holds gave) fed

/-- A run over the built-in functions ends with a string or with the value that it began with. -/
theorem Builtin.result_cases {p : Program} {v w : Json}
    (ends : (Execution.ofProgram registry p v).result = .ok w) : w = v ∨ ∃ t, w = .string t := by
  -- A run that ends well has fed its value through the applications of its blocks.
  obtain ⟨bs, -, planned⟩ := Execution.exists_ofBlocks_of_ok isUsable_registry ends
  have fed := (Execution.result_ofTasks_eq_ok_iff _ _ v w).1 planned
  refine feed_preserves (motive := fun w => w = v ∨ ∃ t, w = .string t) ?_ (.inl rfl) fed
  exact fun key f _ _ found _ gives => .inr (eq_string_of_lookup found gives)

end RecipeEngine
