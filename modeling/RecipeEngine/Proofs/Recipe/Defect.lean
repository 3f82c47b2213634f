import RecipeEngine.Proofs.Recipe.Balance
import RecipeEngine.Proofs.Recipe.Block
import RecipeEngine.Run.Error

/-!
# Defects of recipes

Where the longest well-formed prefix of a recipe ends before the recipe does, the instruction at
that position is at fault.  `Defect` says which failure it amounts to, and there is always one
(`exists_defect`).
-/

namespace RecipeEngine.Program

/-- The instructions of a recipe strictly between two positions. -/
def inner (p : Program) (first last : Nat) : Program := (p.take last).drop (first + 1)

/-- The failure that the instruction at position `k` amounts to if no block begins there.  For a
loop start it depends on the first position behind it at which the markers with its identifier
balance. -/
inductive Defect (p : Program) (k : Nat) : ExecutionError → Prop where
  | orphanEnd {identifier : String} :
      p[k]? = some (.loopEnd identifier) → Defect p k (.orphanLoopEnd identifier k)
  | unsupported : p[k]? = some .unsupported → Defect p k (.unsupportedInstruction k)
  | unmatched {identifier : String} {iterations : UInt32} :
      p[k]? = some (.loopStart identifier iterations) →
      (∀ i, k < i → i < p.length → balanceBetween identifier p k i ≠ 0) →
      Defect p k (.unmatchedLoop identifier k)
  | nested {identifier : String} {iterations : UInt32} {last : Nat} :
      p[k]? = some (.loopStart identifier iterations) →
      IsFirstBalanced identifier p k last →
      (∃ i ∈ inner p k last, i.isLoopMarker = true) →
      Defect p k (.nestedLoop identifier)
  | invalidBody {identifier : String} {iterations : UInt32} {last : Nat} :
      p[k]? = some (.loopStart identifier iterations) →
      IsFirstBalanced identifier p k last →
      (∀ i ∈ inner p k last, i.isLoopMarker = false) →
      Defect p k (.invalidLoopBody identifier)

theorem Defect.source?_eq_none {p : Program} {k : Nat} {e : ExecutionError}
    (defect : Defect p k e) : e.source? = none := by
  cases defect <;> rfl

theorem drop_eq_loop {p : Program} {first last : Nat} {identifier : String} {iterations : UInt32}
    {body : List Step} (isStart : p[first]? = some (.loopStart identifier iterations))
    (isEnd : p[last]? = some (.loopEnd identifier)) (before : first < last)
    (steps : inner p first last = body.map .step) :
    p.drop first = (Block.loop identifier iterations body).instructions ++ p.drop (last + 1) := by
  obtain ⟨firstBound, startIs⟩ := List.getElem?_eq_some_iff.1 isStart
  obtain ⟨lastBound, endIs⟩ := List.getElem?_eq_some_iff.1 isEnd
  have body_end : p.drop (first + 1) = inner p first last ++ p.drop last := by
    have split := List.take_append_drop (last - (first + 1)) (p.drop (first + 1))
    rw [List.drop_drop, show first + 1 + (last - (first + 1)) = last by omega] at split
    rw [inner, List.drop_take]
    exact split.symm
  rw [List.drop_eq_getElem_cons firstBound, startIs, body_end, steps,
    List.drop_eq_getElem_cons lastBound, endIs]
  simp [Block.instructions]

/-- Behind the longest well-formed prefix of a recipe that goes on there is a defect. -/
theorem exists_defect {p : Program} {k : Nat} (stuck : IsStuck (p.drop k)) (more : k < p.length) :
    ∃ e, Defect p k e := by
  have here : p[k]? = some p[k] := List.getElem?_eq_getElem more
  -- A step is a block of its own; anything else is at fault.
  cases instruction : p[k] with
  | step s =>
    rw [List.drop_eq_getElem_cons more, instruction] at stuck
    exact absurd rfl (stuck (.single s) (p.drop (k + 1)))
  | loopEnd identifier => exact ⟨_, .orphanEnd (instruction ▸ here)⟩
  | unsupported => exact ⟨_, .unsupported (instruction ▸ here)⟩
  | loopStart identifier iterations =>
    rw [instruction] at here
    cases found : p.findLoopEnd k identifier with
    | none => exact ⟨_, .unmatched here ((findLoopEnd_eq_none_iff here).1 found)⟩
    | some last =>
      have first := (findLoopEnd_eq_some_iff here).1 found
      cases marked : (inner p k last).any Instruction.isLoopMarker with
      | true => exact ⟨_, .nested here first (List.any_eq_true.1 marked)⟩
      | false => exact ⟨_, .invalidBody here first (by simpa using marked)⟩

end RecipeEngine.Program
