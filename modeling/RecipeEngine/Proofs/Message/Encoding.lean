import RecipeEngine.Proofs.Json.Render
import RecipeEngine.Proofs.Message.Host
import RecipeEngine.Proofs.Recipe.Codec

/-!
# Messages read back

A written message is read as the same message, apart from binary64 numbers that do not read back as
themselves, unless its containers lie too deep inside one another: then it is refused as a whole,
and not even its id is seen (`HostMessage.ofLine_compact`).
-/

namespace RecipeEngine

open Decode Json

/-! ## Texts of values -/

namespace Json

/-- The compact text of a value is accepted for what the value is read back as and for nothing
else, unless it is nested too deep. -/
theorem isAcceptable_compact_iff {j j' : Json} :
    IsAcceptable j' j.compact.toList ↔ j' = j.reread ∧ j.nesting ≤ 127 := by
  have written : j.compact.toList = [] ++ (j.render ++ []) := by
    rw [compact, String.toList_ofList, List.append_nil, List.nil_append]
  rw [written, ← nesting_reread j]
  constructor
  · intro acceptable
    generalize text : [] ++ (j.render ++ []) = t at acceptable
    cases acceptable with
    | intro blank isText blank' flat =>
      have own := isText_render j
      obtain rfl := eq_of_isText areBlank_nil own areBlank_nil blank isText blank' text
      exact ⟨rfl, flat⟩
  · rintro ⟨rfl, flat⟩
    exact .intro areBlank_nil (isText_render j) areBlank_nil flat

end Json

theorem Instruction.reread_toJson (i : Instruction) : i.toJson.reread = i.toJson := by
  cases i <;> rfl

theorem Program.reread_toJson (p : Program) : p.toJson.reread = p.toJson := by
  rw [Program.toJson, Json.reread, rereadItems_eq_map, List.map_map]
  exact congrArg Json.array (List.map_congr_left fun i _ => i.reread_toJson)

namespace HostMessage

/-! ## What a message is written as -/

/-- A message is what its JSON value stands for. -/
theorem exists_toJson {message : HostMessage} (valid : message.isValid = true)
    (canonical : ∀ request, message = .run request → request.initialValue.Canonical) :
    ∃ j, message.toJson = .ok j ∧ StandsFor j message := by
  cases message with
  | prepare => exact ⟨_, rfl, @StandsFor.prepareObject _ "initialize" rfl (by decide)⟩
  | run request =>
    obtain ⟨program, initialValue, correlation⟩ := request
    have isValue : IsInitialValue [initialValue] initialValue := by
      have given : IsInitialValue [initialValue] initialValue.canonical := .given
      rwa [canonical_eq (canonical _ rfl)] at given
    have instructions : AreInstructions (program.map Instruction.toJson) program :=
      Program.forall₂_toJson .nameOrPlace program
    refine ⟨_, rfl, ?_⟩
    cases correlation with
    | none =>
      exact @StandsFor.runObject _ "runRecipe" _ _ _ _ rfl (by decide) rfl instructions isValue
        .absent
    | some id =>
      exact @StandsFor.runObject _ "runRecipe" _ _ _ _ rfl (by decide) rfl instructions isValue
        .given
  | invalid => cases valid

/-! ## What a message is read back as -/

/-- The binary64 numbers in a message. -/
def floats : HostMessage → List Number.Binary64
  | .run request => request.initialValue.floats
  | _ => []

/-- A message with each of its binary64 numbers read back. -/
def reread : HostMessage → HostMessage
  | .run request => .run { request with initialValue := request.initialValue.reread }
  | message => message

theorem reread_eq_self {message : HostMessage} (same : ∀ x ∈ message.floats, x.reread = x) :
    message.reread = message := by
  cases message with
  | run request => rw [reread, Json.reread_eq_self same]
  | prepare => rfl
  | invalid => rfl

theorem toJson_reread {message : HostMessage} {j : Json} (written : message.toJson = .ok j) :
    message.reread.toJson = .ok j.reread := by
  cases message with
  | prepare =>
    cases written
    rfl
  | run request =>
    cases written
    obtain ⟨program, initialValue, correlation⟩ := request
    cases correlation <;>
      simp [reread, toJson, Json.reread, rereadMembers, taggedMembers, correlationMembers,
        Program.reread_toJson]
  | invalid => cases written

theorem exists_toJson_reread {message : HostMessage} (valid : message.isValid = true)
    (canonical : ∀ request, message = .run request → request.initialValue.Canonical) :
    ∃ j, message.toJson = .ok j ∧ StandsFor j.reread message.reread := by
  obtain ⟨j, written, -⟩ := exists_toJson valid canonical
  have valid' : message.reread.isValid = true := by
    cases message <;> exact valid
  have canonical' : ∀ request, message.reread = .run request → request.initialValue.Canonical := by
    intro request isRun
    cases message with
    | run original =>
      cases isRun
      exact canonical_reread (canonical original rfl)
    | prepare => cases isRun
    | invalid => cases isRun
  obtain ⟨j', written', stands⟩ := exists_toJson valid' canonical'
  rw [toJson_reread written] at written'
  cases written'
  exact ⟨j, written, stands⟩

/-! ## Messages read back -/

/-- A message is read back from what is written of it, as long as no more than 127 containers lie
inside one another: as itself if its binary64 numbers are, and else with what they are read as.
Nested deeper it is refused and carries no id. -/
theorem ofLine_compact {message : HostMessage} (valid : message.isValid = true)
    (canonical : ∀ request, message = .run request → request.initialValue.Canonical) :
    ∃ j, message.toJson = .ok j ∧
      (j.nesting ≤ 127 → ofLine j.compact = message.reread ∧
        ((∀ x ∈ message.floats, x.reread = x) → ofLine j.compact = message)) ∧
      (128 ≤ j.nesting → ∃ reason, ofLine j.compact = .invalid reason none) := by
  obtain ⟨j, written, stands⟩ := exists_toJson_reread valid canonical
  refine ⟨j, written, fun flat => ?_, fun deep => ?_⟩
  · have readBack := (ofLine_eq_iff.2 ⟨_, isAcceptable_compact_iff.2 ⟨rfl, flat⟩, stands⟩).1
    exact ⟨readBack, fun same => readBack.trans (reread_eq_self same)⟩
  · have unacceptable : ∀ j', ¬ IsAcceptable j' j.compact.toList := by
      intro j' acceptable
      have flat := (isAcceptable_compact_iff.1 acceptable).2
      omega
    obtain ⟨j', _, acceptable, -⟩ | ⟨reason, correlation, invalid, -, carried⟩ :=
      ofLine_cases j.compact
    · exact absurd acceptable (unacceptable j')
    · cases correlation with
      | none => exact ⟨reason, invalid⟩
      | some id =>
        obtain ⟨members, acceptable, -⟩ := (carried id).1 rfl
        exact absurd acceptable (unacceptable _)

/-- A request with the number 1.5 in its initial value. -/
def halfRequest : HostMessage :=
  let oneAndHalf : Number.Binary64 := ⟨false, ⟨4609434218613702656, by decide⟩⟩
  .run ⟨[.loopEnd "\n", .unsupported], .object [("a", .number (.floating oneAndHalf))], some "id"⟩

theorem ofLine_compact_object :
    ∃ j, halfRequest.toJson = .ok j ∧ ofLine j.compact = halfRequest := by
  have canonical : ∀ request, halfRequest = .run request → request.initialValue.Canonical := by
    rintro _ ⟨⟩
    simp [Canonical, CanonicalMembers, Text.Entries.Sorted]
  have same : ∀ x ∈ halfRequest.floats, x.reread = x := by decide +kernel
  obtain ⟨j, written, shallow, -⟩ := ofLine_compact rfl canonical
  cases written
  exact ⟨_, rfl, (shallow (by decide)).2 same⟩

end HostMessage

end RecipeEngine
