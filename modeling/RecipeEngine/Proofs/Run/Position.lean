import RecipeEngine.Proofs.Recipe.Balance
import RecipeEngine.Proofs.Run.Execution
import RecipeEngine.Run.Execute

/-!
# The position of a run

Every instruction that does not fail moves the position forward and not beyond the end of the
recipe (`position_of_ofInstruction`).  A run is therefore through after at most as many rounds as
there are instructions in front of it, and further rounds change nothing (`runFrom_add_of_enough`).
-/

namespace RecipeEngine.Execution

variable {r : Registry} {p : Program}

theorem position_of_ofInstruction {k : Nat} {v : Json} {i : Instruction} {s : RunState}
    (here : p[k]? = some i) (goes : (ofInstruction r p ⟨k, v⟩ i).result = .ok s) :
    k < s.position ∧ s.position ≤ p.length := by
  have inside : k < p.length := (List.getElem?_eq_some_iff.1 here).1
  cases i with
  | step st =>
    obtain ⟨w, -, next⟩ := result_bind_eq_ok_iff.1 goes
    cases next
    exact ⟨Nat.lt_succ_self k, inside⟩
  | loopStart identifier iterations =>
    simp only [ofInstruction, ofLoop] at goes
    cases found : p.findLoopEnd k identifier with
    | none =>
      rw [found] at goes
      cases goes
    | some last =>
      have first := (Program.findLoopEnd_eq_some_iff here).1 found
      simp only [found, result_bind_eq_ok_iff] at goes
      obtain ⟨body, -, w, -, next⟩ := goes
      cases next
      exact ⟨Nat.lt_succ_of_lt first.behind, first.bound⟩
  | loopEnd identifier => cases goes
  | unsupported => cases goes

/-! ## Rounds -/

theorem runFrom_of_end (rounds : Nat) {s : RunState} (ended : p[s.position]? = none) :
    runFrom r p rounds s = pure s := by
  cases rounds with
  | zero => rfl
  | succ rounds => rw [runFrom, ended]

theorem runFrom_add (r : Registry) (p : Program) (first second : Nat) (s : RunState) :
    runFrom r p (first + second) s = runFrom r p first s >>= runFrom r p second := by
  induction first generalizing s with
  | zero =>
    rw [Nat.zero_add]
    exact (pure_bind s (runFrom r p second)).symm
  | succ first ih =>
    rw [Nat.add_right_comm]
    cases here : p[s.position]? with
    | none => rw [runFrom_of_end _ here, runFrom_of_end _ here, pure_bind, runFrom_of_end _ here]
    | some i => simp only [runFrom, here, bind_assoc, ih]

/-- With enough rounds left, a run that comes to an end comes to the end of the recipe. -/
theorem length_le_position {rounds : Nat} {s s' : RunState}
    (enough : p.length ≤ s.position + rounds) (ends : (runFrom r p rounds s).result = .ok s') :
    p.length ≤ s'.position := by
  induction rounds generalizing s with
  | zero =>
    cases ends
    exact enough
  | succ rounds ih =>
    cases here : p[s.position]? with
    | none =>
      rw [runFrom_of_end _ here] at ends
      cases ends
      exact List.getElem?_eq_none_iff.1 here
    | some i =>
      simp only [runFrom, here] at ends
      obtain ⟨next, goes, later⟩ := result_bind_eq_ok_iff.1 ends
      have forward := (position_of_ofInstruction here goes).1
      exact ih (by omega) later

theorem runFrom_add_of_enough {rounds : Nat} {s : RunState}
    (enough : p.length ≤ s.position + rounds) (more : Nat) :
    runFrom r p (rounds + more) s = runFrom r p rounds s := by
  rw [runFrom_add]
  apply bind_eq_self
  intro s' ends
  exact runFrom_of_end more (List.getElem?_eq_none_iff.2 (length_le_position enough ends))

end RecipeEngine.Execution
