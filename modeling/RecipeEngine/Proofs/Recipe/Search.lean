import RecipeEngine.Proofs.Recipe.Balance

/-!
# Loops in longer recipes

The search for the end of a loop goes forward from the start of the loop and stops at the end.
What stands in front of the start only moves the positions (`findLoopEnd_append_right`), and what
stands behind the end has no part in the search (`findLoopEnd_append_left`).  Steps in between are
gone past (`findEndFrom_past_row`).
-/

namespace RecipeEngine.Program

theorem findEndFrom_add (identifier : String) (offset position balance : Nat) (p : Program) :
    findEndFrom identifier (offset + position) balance p =
      (findEndFrom identifier position balance p).map (offset + ·) := by
  induction p generalizing position balance with
  | nil => rfl
  | cons i p ih =>
    cases i with
    | step s => simp only [findEndFrom, Nat.add_assoc, ih]
    | unsupported => simp only [findEndFrom, Nat.add_assoc, ih]
    | loopStart id iterations => simp only [findEndFrom, Nat.add_assoc, ih]
    | loopEnd id =>
      simp only [findEndFrom, Nat.add_assoc, ih]
      split
      · split <;> rfl
      · rfl

theorem findEndFrom_append {identifier : String} {position balance last : Nat} {p : Program}
    (found : findEndFrom identifier position balance p = some last) (q : Program) :
    findEndFrom identifier position balance (p ++ q) = some last := by
  induction p generalizing position balance with
  | nil => cases found
  | cons i p ih =>
    cases i with
    | step s => exact ih found
    | unsupported => exact ih found
    | loopStart id iterations => exact ih found
    | loopEnd id =>
      simp only [List.cons_append, findEndFrom] at found ⊢
      split
      next same =>
        rw [if_pos same] at found
        split
        next closed => rwa [if_pos closed] at found
        next isOpen =>
          rw [if_neg isOpen] at found
          exact ih found
      next different =>
        rw [if_neg different] at found
        exact ih found

/-! ## Rows of steps -/

/-- The search goes past steps. -/
theorem findEndFrom_steps (identifier : String) (position balance : Nat) (steps : List Step)
    (p : Program) :
    findEndFrom identifier position balance (steps.map .step ++ p) =
      findEndFrom identifier (position + steps.length) balance p := by
  induction steps generalizing position with
  | nil => rfl
  | cons s steps ih =>
    simp only [List.map_cons, List.cons_append, findEndFrom, ih, List.length_cons, Nat.add_assoc,
      Nat.add_comm 1]

/-- A search that finds no end in front of a row of steps comes past the row, with as many loops
open whatever steps there are. -/
theorem findEndFrom_past_row {identifier : String} {position balance : Nat} {front : Program}
    (positive : 0 < balance) (missing : findEndFrom identifier position balance front = none)
    (back : Program) :
    ∃ remaining, 0 < remaining ∧ ∀ steps : List Step,
      findEndFrom identifier position balance (front ++ (steps.map .step ++ back)) =
        findEndFrom identifier (position + front.length + steps.length) remaining back := by
  induction front generalizing position balance with
  | nil => exact ⟨balance, positive, fun steps => findEndFrom_steps ..⟩
  | cons i front ih =>
    obtain closed | ⟨next, isOpen, weighed⟩ := closes_or_leaves_open identifier positive i
    · rw [(findEndFrom_cons_of_zero position front positive closed).1] at missing
      cases missing
    · rw [findEndFrom_cons_of_pos isOpen weighed] at missing
      obtain ⟨remaining, someOpen, past⟩ := ih isOpen missing
      refine ⟨remaining, someOpen, fun steps => ?_⟩
      rw [List.cons_append, findEndFrom_cons_of_pos isOpen weighed, past, List.length_cons,
        Nat.add_assoc position, Nat.add_comm 1]

/-! ## Longer recipes -/

/-- A recipe in front moves the ends of loops as far as their starts. -/
theorem findLoopEnd_append_right (p q : Program) (start : Nat) (identifier : String) :
    (p ++ q).findLoopEnd (p.length + start) identifier =
      (q.findLoopEnd start identifier).map (p.length + ·) := by
  rw [findLoopEnd, List.drop_length_add_append, findEndFrom_add]
  rfl

/-- A loop that ends within a recipe ends at the same place in a longer one. -/
theorem findLoopEnd_append_left {p : Program} {start last : Nat} {identifier : String}
    (found : p.findLoopEnd start identifier = some last) (bound : start ≤ p.length) (q : Program) :
    (p ++ q).findLoopEnd start identifier = some last := by
  rw [findLoopEnd, List.drop_append_of_le_length bound]
  exact findEndFrom_append found q

end RecipeEngine.Program
