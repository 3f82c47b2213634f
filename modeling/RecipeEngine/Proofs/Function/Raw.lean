import RecipeEngine.Function.Registry
import RecipeEngine.Proofs.Json.Basic

/-!
# Raw functions

A raw function gives a value or breaks down, but it cannot refuse one.  As a function of a registry
it refuses through what it gives: an object with a textual member `error` is its refusal, and
everything else is a value, such an object inside an array included
(`RawFunction.toFunction_eq_failure_iff`, `RawFunction.toFunction_eq_value_iff`).

A registry that only raw functions were registered in has no other functions
(`Registry.IsRaw.lookup_eq`).
-/

namespace RecipeEngine

/-! ## Reports of failure -/

/-- Whether a value is an object whose member `error` is the text `detail`.  Of several members of
that name the last one counts. -/
def Json.Reports (v : Json) (detail : String) : Prop :=
  ∃ members, v = .object members ∧ (valuesOf ["error"] members).getLast? = some (.string detail)

theorem Json.text?_eq_some_iff {v : Json} {s : String} : v.text? = some s ↔ v = .string s := by
  cases v <;> simp [text?]

theorem Json.reports_iff {v : Json} {detail : String} :
    v.Reports detail ↔ (v.member? FunctionFailure.errorName).bind text? = some detail := by
  simp only [Option.bind_eq_some_iff, text?_eq_some_iff, exists_eq_right]
  constructor
  · rintro ⟨members, rfl, last⟩
    rw [member?_object]
    exact last
  · intro found
    cases v with
    | object members =>
      rw [member?_object] at found
      exact ⟨members, rfl, found⟩
    | null => cases found
    | boolean => cases found
    | number => cases found
    | string => cases found
    | array => cases found

theorem classify_of_reports {raw : Json} {detail : String} (reports : raw.Reports detail) :
    classify raw = .failure ⟨detail⟩ := by
  rw [classify, Json.reports_iff.1 reports]

theorem classify_of_not_reports {raw : Json} (value : ∀ detail, ¬ raw.Reports detail) :
    classify raw = .value raw := by
  have nothing : (raw.member? FunctionFailure.errorName).bind Json.text? = none :=
    Option.eq_none_iff_forall_ne_some.2 fun detail found => value detail (Json.reports_iff.2 found)
  rw [classify, nothing]

/-- A value is a report of failure, or else it is no such report whatever the detail. -/
theorem classify_cases (raw : Json) :
    (∃ detail, raw.Reports detail ∧ classify raw = .failure ⟨detail⟩) ∨
      (∀ detail, ¬ raw.Reports detail) ∧ classify raw = .value raw := by
  by_cases reports : ∃ detail, raw.Reports detail
  · obtain ⟨detail, reports⟩ := reports
    exact .inl ⟨detail, reports, classify_of_reports reports⟩
  · have value := not_exists.1 reports
    exact .inr ⟨value, classify_of_not_reports value⟩

/-! ## Raw functions as functions -/

/-- A function that knows raw values only: it gives one, or breaks down with some words. -/
abbrev RawFunction := Json → Except String Json

namespace RawFunction

def toFunction (f : RawFunction) : Function := fun v =>
  match f v with
  | .ok raw => classify raw
  | .error words => .breakdown words

/-- A raw function that never breaks down. -/
theorem ofRaw_eq_toFunction (f : Json → Json) :
    Function.ofRaw f = toFunction fun v => .ok (f v) := rfl

variable {f : RawFunction} {v : Json}

theorem toFunction_eq_value_iff {w : Json} :
    f.toFunction v = .value w ↔ f v = .ok w ∧ ∀ detail, ¬ w.Reports detail := by
  unfold toFunction
  cases gives : f v with
  | error words => simp
  | ok raw =>
    rcases classify_cases raw with ⟨detail, reports, failure⟩ | ⟨plain, value⟩
    · simp only [failure, reduceCtorEq, Except.ok.injEq, false_iff]
      rintro ⟨rfl, plain⟩
      exact plain detail reports
    · simp only [value, Outcome.value.injEq, Except.ok.injEq]
      refine ⟨?_, And.left⟩
      rintro rfl
      exact ⟨rfl, plain⟩

theorem toFunction_eq_failure_iff {failure : FunctionFailure} :
    f.toFunction v = .failure failure ↔ ∃ raw, f v = .ok raw ∧ raw.Reports failure.error := by
  unfold toFunction
  cases gives : f v with
  | error words => simp
  | ok raw =>
    simp only [Except.ok.injEq, exists_eq_left']
    rcases classify_cases raw with ⟨detail, reports, refuses⟩ | ⟨plain, value⟩
    · rw [refuses, Outcome.failure.injEq]
      constructor
      · rintro rfl
        exact reports
      · -- A report has one detail, since `classify` gives one.
        intro reports'
        exact Outcome.failure.inj (refuses.symm.trans (classify_of_reports reports'))
    · simp [value, plain]

end RawFunction

/-! ## Registries of raw functions -/

/-- How a registry comes about that holds raw functions only, and what it holds under each key. -/
inductive Registry.IsRaw : Registry → (String → Option RawFunction) → Prop where
  | empty : IsRaw .empty fun _ => none
  | register {r : Registry} {raw : String → Option RawFunction} (key : String) (f : RawFunction) :
      IsRaw r raw →
      IsRaw (r.register key f.toFunction) fun other => if other = key then some f else raw other
  | markReady {r : Registry} {raw : String → Option RawFunction} : IsRaw r raw → IsRaw r.markReady raw

namespace Registry.IsRaw

variable {r : Registry} {raw : String → Option RawFunction}

theorem registerRaw (isRaw : r.IsRaw raw) (key : String) (f : Json → Json) :
    (r.registerRaw key f).IsRaw fun other =>
      if other = key then some fun v => .ok (f v) else raw other :=
  isRaw.register key fun v => .ok (f v)

theorem lookup_eq (isRaw : r.IsRaw raw) (key : String) :
    r.lookup key = (raw key).map RawFunction.toFunction := by
  induction isRaw with
  | empty => rfl
  | register key' f _ ih =>
    simp only [lookup, Registry.register, Text.Entries.find?_insert]
    by_cases same : key = key'
    · rw [if_pos same, if_pos same, Option.map_some]
    · rw [if_neg same, if_neg same]
      exact ih
  | markReady _ ih => exact ih

theorem exists_of_lookup (isRaw : r.IsRaw raw) {key : String} {f : Function}
    (found : r.lookup key = some f) : ∃ g, raw key = some g ∧ f = g.toFunction := by
  rw [isRaw.lookup_eq, Option.map_eq_some_iff] at found
  obtain ⟨g, registered, rfl⟩ := found
  exact ⟨g, registered, rfl⟩

end Registry.IsRaw

end RecipeEngine
