import RecipeEngine.Proofs.Worker.Turn

/-!
# Bringing up a registry

A start of the module brings up a registry exactly if it gives one with every promised function,
and then this registry is marked ready (`accepted_of_attempt`).  A worker without a registry starts
its module once for every message that is valid; a worker with a registry stays as it is.
-/

namespace RecipeEngine

/-! ## Registries -/

namespace Registry

theorem mem_keys_iff {r : Registry} {key : String} : key ∈ r.keys ↔ r.has key = true :=
  Text.Entries.find?_isSome_iff.symm

theorem pairwise_keys (r : Registry) : r.keys.Pairwise (· < ·) := List.pairwise_map.2 r.sorted

theorem isEmpty_iff {r : Registry} : r.isEmpty = true ↔ ∀ key, r.lookup key = none := by
  have names : r.isEmpty = true ↔ r.keys = [] := by
    rw [isEmpty, List.isEmpty_iff, keys, Text.Entries.keys, List.map_eq_nil_iff]
  rw [names, List.eq_nil_iff_forall_not_mem]
  simp only [mem_keys_iff, has, Option.not_isSome_iff_eq_none]

end Registry

/-! ## Starts -/

/-- A registry is accepted if it holds every expected function, and then it is marked ready. -/
theorem acceptRegistry_eq_ok_iff {expected : List String} {r accepted : Registry} :
    acceptRegistry expected r = .ok accepted ↔
      (∀ key ∈ expected, r.has key = true) ∧ accepted = r.markReady := by
  simp only [acceptRegistry, List.partition_eq_filter_filter]
  by_cases whole : ∀ key ∈ expected, r.has key = true
  · have complete : expected.filter (not ∘ r.has) = [] := by
      simpa [List.filter_eq_nil_iff] using whole
    simp only [complete]
    constructor
    · intro accepts
      cases accepts
      exact ⟨whole, rfl⟩
    · rintro ⟨-, rfl⟩
      rfl
  · have incomplete : expected.filter (not ∘ r.has) ≠ [] := by
      simpa [List.filter_eq_nil_iff] using whole
    rw [if_neg (by simpa using incomplete)]
    constructor
    · intro accepts
      cases accepts
    · rintro ⟨complete, -⟩
      exact absurd complete whole

/-- Whether a registry is ready and holds every function that a module has promised. -/
def Registry.Fulfils (r : Registry) (m : FunctionModule) : Prop :=
  r.isReady = true ∧
    ∀ expected, m.promise = .keys expected → ∀ key ∈ expected, r.has key = true

theorem BringUp.fulfils_of_attempt {m : FunctionModule} {limit : Duration} {start : Nat}
    {r : Registry} (ready : BringUp.attempt m limit start = .ready r) : r.Fulfils m := by
  rw [attempt] at ready
  cases outcome : m.start start with
  | failed reason => simp [outcome] at ready
  | exited => simp [outcome] at ready
  | silent => simp [outcome] at ready
  | ready delivered =>
    simp only [outcome, ofRegistry] at ready
    cases promised : m.promise with
    | breakdown words => simp [promised] at ready
    | keys expected =>
      simp only [promised] at ready
      cases checked : acceptRegistry expected delivered with
      | error e => simp [checked] at ready
      | ok accepted =>
        simp only [checked, BringUp.ready.injEq] at ready
        obtain ⟨complete, marked⟩ := acceptRegistry_eq_ok_iff.1 checked
        rw [ready] at marked
        subst marked
        refine ⟨rfl, ?_⟩
        intro expected' promised' key member
        rw [promised] at promised'
        cases promised'
        exact complete key member

namespace Worker

variable {w : Worker} {r : Registry}

theorem bringUp_of_unheld (unheld : w.registry = none) :
    w.bringUp.1.starts = w.starts + 1 ∧
      ∀ r, w.bringUp.1.registry = some r ↔
        BringUp.attempt w.module w.limit w.starts = .ready r := by
  simp only [bringUp, unheld]
  cases BringUp.attempt w.module w.limit w.starts with
  | ready accepted => simp
  | failed e => simp
  | brokeDown words => simp

theorem registry_bringUp : w.bringUp.1.registry = some r ↔ w.bringUp.2 = .ready r := by
  cases held : w.registry with
  | some r' => simp [bringUp, held]
  | none =>
    simp only [bringUp, held]
    cases BringUp.attempt w.module w.limit w.starts with
    | ready accepted => simp
    | failed e => simp
    | brokeDown words => simp

theorem limit_bringUp (w : Worker) : w.bringUp.1.limit = w.limit := by
  cases held : w.registry with
  | some r => simp [bringUp, held]
  | none =>
    simp only [bringUp, held]
    cases BringUp.attempt w.module w.limit w.starts <;> rfl

end Worker

end RecipeEngine
