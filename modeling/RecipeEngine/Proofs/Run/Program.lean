import RecipeEngine.Proofs.Recipe.Defect
import RecipeEngine.Proofs.Recipe.Search
import RecipeEngine.Proofs.Run.Plan

/-!
# The run of a whole recipe

A run first goes through the plan of the longest well-formed prefix of its recipe.  If the recipe
ends there, so does the run; otherwise the run fails with the defect that follows
(`ofProgram_of_defect`).  What lies behind the defect has no part in the run except through the
search for the end of a loop.
-/

namespace RecipeEngine.Execution

open Program

/-! ## The body of a loop -/

theorem bodySteps_of_marker {identifier : String} {body : Program}
    (marked : ∃ i ∈ body, i.isLoopMarker = true) :
    bodySteps identifier body = .error (.nestedLoop identifier) := by
  rw [bodySteps, if_pos (List.any_eq_true.2 marked)]

theorem bodySteps_of_steps (identifier : String) (steps : List Step) :
    bodySteps identifier (steps.map .step) = .ok steps := by
  have unmarked : ¬ (steps.map Instruction.step).any Instruction.isLoopMarker = true := by
    simp [Instruction.isLoopMarker]
  rw [bodySteps, if_neg unmarked]
  clear unmarked
  induction steps with
  | nil => rfl
  | cons s steps ih =>
    rw [List.map_cons, List.mapM_cons, ih]
    rfl

theorem bodySteps_of_other {identifier : String} {body : Program}
    (unmarked : ∀ i ∈ body, i.isLoopMarker = false) (other : ∀ steps, body ≠ List.map .step steps) :
    bodySteps identifier body = .error (.invalidLoopBody identifier) := by
  rw [bodySteps, if_neg (by simpa using unmarked)]
  clear unmarked
  induction body with
  | nil => exact absurd rfl (other [])
  | cons i body ih =>
    rw [List.mapM_cons]
    cases i with
    | step s =>
      have later : ∀ steps, body ≠ List.map .step steps := by
        intro steps same
        exact other (s :: steps) (by rw [same]; rfl)
      rw [ih later]
      rfl
    | loopStart _ _ | loopEnd _ | unsupported => rfl

/-- Whether a body is refused, and how, does not depend on the steps in it. -/
theorem bodySteps_row (identifier : String) (front back : Program) :
    (∃ first second, front = List.map .step first ∧ back = List.map .step second) ∨
      ∃ e, ∀ steps : List Step,
        bodySteps identifier (front ++ (steps.map .step ++ back)) = .error e := by
  by_cases marked : ∃ i ∈ front ++ back, i.isLoopMarker = true
  · obtain ⟨i, member, marker⟩ := marked
    refine .inr ⟨_, fun steps => bodySteps_of_marker ⟨i, ?_, marker⟩⟩
    rcases List.mem_append.1 member with inFront | inBack
    · exact List.mem_append_left _ inFront
    · exact List.mem_append_right _ (List.mem_append_right _ inBack)
  · by_cases plain : ∃ first second, front = List.map .step first ∧ back = List.map .step second
    · exact .inl plain
    · refine .inr ⟨_, fun steps => bodySteps_of_other ?_ ?_⟩
      · intro i member
        rcases List.mem_append.1 member with inFront | behind
        · exact Bool.eq_false_iff.2 fun marker =>
            marked ⟨i, List.mem_append_left _ inFront, marker⟩
        · rcases List.mem_append.1 behind with inRow | inBack
          · obtain ⟨s, -, rfl⟩ := List.mem_map.1 inRow
            rfl
          · exact Bool.eq_false_iff.2 fun marker =>
              marked ⟨i, List.mem_append_right _ inBack, marker⟩
      · intro all same
        obtain ⟨first, behind, -, inFront, others⟩ := List.map_eq_append_iff.1 same.symm
        obtain ⟨row, second, -, -, inBack⟩ := List.map_eq_append_iff.1 others
        exact plain ⟨first, second, inFront.symm, inBack.symm⟩

/-! ## One block -/

theorem findEndFrom_body (identifier : String) (body : List Step) (rest : Program)
    (position : Nat) :
    findEndFrom identifier position 1 (body.map .step ++ .loopEnd identifier :: rest) =
      some (position + body.length) := by
  rw [findEndFrom_steps]
  simp [findEndFrom]

/-- The run executes the block that begins at its position and goes on behind it. -/
theorem ofInstruction_block (r : Registry) {p : Program} {k : Nat} {b : Block} {rest : Program}
    (begins : p.drop k = b.instructions ++ rest) (v : Json) :
    ∃ i, p[k]? = some i ∧
      ofInstruction r p ⟨k, v⟩ i =
        ofTasks r b.tasks v >>= fun w => pure ⟨k + b.instructions.length, w⟩ := by
  rw [← List.head?_drop, begins]
  cases b with
  | single s =>
    refine ⟨.step s, rfl, ?_⟩
    rw [← ofBlock_eq_ofTasks]
    rfl
  | loop identifier iterations body =>
    simp only [Block.instructions, List.cons_append, List.append_assoc, List.nil_append] at begins
    have body_next : p.drop (k + 1) = body.map .step ++ .loopEnd identifier :: rest := by
      rw [← List.drop_drop, begins, List.drop_one, List.tail_cons]
    have found : p.findLoopEnd k identifier = some (k + 1 + body.length) := by
      rw [findLoopEnd, begins]
      simp only [findEndFrom, if_pos, Nat.zero_add]
      exact findEndFrom_body identifier body rest (k + 1)
    have between : (p.take (k + 1 + body.length)).drop (k + 1) = body.map .step := by
      rw [List.drop_take, body_next]
      simp
    refine ⟨.loopStart identifier iterations, rfl, ?_⟩
    simp only [ofInstruction, ofLoop, found, between, bodySteps_of_steps, ofExcept, pure_bind,
      ← ofBlock_eq_ofTasks, ofBlock]
    simp [RunState.withValue, RunState.jump, Block.instructions, Nat.add_assoc, Nat.add_comm 1]

/-- The run goes through the plan of the blocks that begin at its position. -/
theorem runFrom_ofBlocks (r : Registry) {p : Program} {k : Nat} {bs : List Block} {rest : Program}
    (begins : p.drop k = ofBlocks bs ++ rest) (rounds : Nat) (v : Json) :
    runFrom r p (bs.length + rounds) ⟨k, v⟩ =
      ofTasks r (plan bs) v >>= fun w => runFrom r p rounds ⟨k + (ofBlocks bs).length, w⟩ := by
  -- Each block takes one round, however many instructions it has.
  induction bs generalizing k v with
  | nil => simp
  | cons b bs ih =>
    rw [ofBlocks_cons, List.append_assoc] at begins
    obtain ⟨i, here, executed⟩ := ofInstruction_block r begins v
    have behind : p.drop (k + b.instructions.length) = ofBlocks bs ++ rest := by
      rw [← List.drop_drop, begins, List.drop_left]
    rw [List.length_cons, Nat.add_right_comm, plan_cons, ofTasks_append, ofBlocks_cons,
      List.length_append, ← Nat.add_assoc]
    simp only [runFrom, here, executed, bind_assoc, pure_bind, ih behind]

/-! ## Defects -/

theorem ofLoop_of_refused (r : Registry) {p : Program} {k last : Nat} {identifier : String}
    {e : ExecutionError} (iterations : UInt32) (v : Json)
    (found : p.findLoopEnd k identifier = some last)
    (refused : bodySteps identifier (p.inner k last) = .error e) :
    ofLoop r p identifier iterations ⟨k, v⟩ = fail e := by
  rw [Program.inner] at refused
  simp only [ofLoop, found, refused, ofExcept, fail_bind]

/-- A run that has come to a defect fails with it. -/
theorem ofInstruction_defect (r : Registry) {p : Program} {k : Nat} {e : ExecutionError}
    (defect : Defect p k e) (stuck : IsStuck (p.drop k)) (v : Json) :
    ∃ i, p[k]? = some i ∧ ofInstruction r p ⟨k, v⟩ i = fail e := by
  cases defect with
  | orphanEnd isEnd => exact ⟨_, isEnd, rfl⟩
  | unsupported isUnsupported => exact ⟨_, isUnsupported, rfl⟩
  | unmatched isStart never =>
    have missing := (findLoopEnd_eq_none_iff isStart).2 never
    exact ⟨_, isStart, by simp only [ofInstruction, ofLoop, missing]⟩
  | nested isStart first marked =>
    have found := (findLoopEnd_eq_some_iff isStart).2 first
    exact ⟨_, isStart, ofLoop_of_refused r _ v found (bodySteps_of_marker marked)⟩
  | invalidBody isStart first unmarked =>
    have found := (findLoopEnd_eq_some_iff isStart).2 first
    refine ⟨_, isStart, ofLoop_of_refused r _ v found (bodySteps_of_other unmarked ?_)⟩
    -- With steps only in its body, the loop would be a block.
    intro steps same
    exact stuck _ _ (drop_eq_loop isStart (first.isEnd isStart) first.behind same)

/-! ## Whole recipes -/

theorem ofProgram_of_usable {r : Registry} (usable : r.isUsable = true) (p : Program) (v : Json) :
    ofProgram r p v = remark (startRemark p) >>= fun _ =>
      runFrom r p p.length ⟨0, v⟩ >>= fun s => pure s.value := by
  rw [ofProgram, if_pos usable]
  rfl

theorem ofProgram_of_unusable {r : Registry} (useless : ¬ r.isUsable = true) (p : Program)
    (v : Json) : ofProgram r p v = fail .registryNotReady := by
  rw [ofProgram, if_neg useless]

theorem isUsable_of_ok {r : Registry} {p : Program} {v w : Json}
    (ends : (ofProgram r p v).result = .ok w) : r.isUsable = true := by
  cases usable : r.isUsable with
  | true => rfl
  | false =>
    rw [ofProgram_of_unusable (Bool.eq_false_iff.1 usable)] at ends
    cases ends

theorem ofProgram_ofBlocks {r : Registry} (usable : r.isUsable = true) (bs : List Block)
    (v : Json) :
    ofProgram r (ofBlocks bs) v =
      remark (startRemark (ofBlocks bs)) >>= fun _ => ofTasks r (plan bs) v := by
  obtain ⟨rounds, length⟩ := Nat.exists_eq_add_of_le (length_le_length_ofBlocks bs)
  have begins : (ofBlocks bs).drop 0 = ofBlocks bs ++ [] := by simp
  -- The rounds that are left over find no instruction.
  have through : ∀ w, runFrom r (ofBlocks bs) rounds ⟨0 + (ofBlocks bs).length, w⟩ =
      pure ⟨0 + (ofBlocks bs).length, w⟩ := by
    intro w
    cases rounds <;> simp [runFrom]
  rw [ofProgram_of_usable usable]
  have run := runFrom_ofBlocks r begins rounds v
  rw [← length] at run
  rw [run]
  simp only [through, bind_assoc, pure_bind, bind_pure]

/-- A run of a recipe with a defect goes through the plan of its longest well-formed prefix, and
then fails with the defect. -/
theorem ofProgram_of_defect {r : Registry} (usable : r.isUsable = true) {bs : List Block}
    {rest : Program} {e : ExecutionError} (stuck : IsStuck rest)
    (defect : Defect (ofBlocks bs ++ rest) (ofBlocks bs).length e) (v : Json) :
    ofProgram r (ofBlocks bs ++ rest) v =
      remark (startRemark (ofBlocks bs ++ rest)) >>= fun _ =>
        ofTasks r (plan bs) v >>= fun _ => fail e := by
  have here := ofInstruction_defect r defect (by simpa using stuck)
  have inside : (ofBlocks bs).length < (ofBlocks bs ++ rest).length := by
    obtain ⟨i, isHere, -⟩ := here v
    exact (List.getElem?_eq_some_iff.1 isHere).1
  obtain ⟨rounds, length⟩ := Nat.exists_eq_add_of_lt
    (Nat.lt_of_le_of_lt (length_le_length_ofBlocks bs) inside)
  -- A round is left for the defect, and it is the last one that counts.
  have fails : ∀ w, runFrom r (ofBlocks bs ++ rest) (rounds + 1) ⟨0 + (ofBlocks bs).length, w⟩ =
      fail e := by
    intro w
    obtain ⟨i, isHere, failed⟩ := here w
    simp only [runFrom, Nat.zero_add, isHere, failed, fail_bind]
  rw [ofProgram_of_usable usable]
  have run := runFrom_ofBlocks r (p := ofBlocks bs ++ rest) (k := 0) rfl (rounds + 1) v
  rw [← Nat.add_assoc, ← length] at run
  rw [run]
  simp only [fails, bind_assoc, fail_bind]

/-- What the run of a recipe consists of: the plan of its longest well-formed prefix and, if the
recipe goes on behind that prefix, the failure with the defect there. -/
theorem ofProgram_cases {r : Registry} (usable : r.isUsable = true) (bs : List Block)
    {rest : Program} (stuck : IsStuck rest) (v : Json) :
    (rest = [] ∧ ofProgram r (ofBlocks bs ++ rest) v =
      remark (startRemark (ofBlocks bs ++ rest)) >>= fun _ => ofTasks r (plan bs) v) ∨
    ∃ e, Defect (ofBlocks bs ++ rest) (ofBlocks bs).length e ∧
      ofProgram r (ofBlocks bs ++ rest) v =
        remark (startRemark (ofBlocks bs ++ rest)) >>= fun _ =>
          ofTasks r (plan bs) v >>= fun _ => fail e := by
  cases rest with
  | nil =>
    rw [List.append_nil]
    exact .inl ⟨rfl, ofProgram_ofBlocks usable bs v⟩
  | cons i rest =>
    have stuck_here : IsStuck ((ofBlocks bs ++ i :: rest).drop (ofBlocks bs).length) := by
      rw [List.drop_left]
      exact stuck
    obtain ⟨e, defect⟩ := exists_defect stuck_here (by simp)
    exact .inr ⟨e, defect, ofProgram_of_defect usable stuck defect v⟩

/-- Only a row of blocks is run to an end. -/
theorem exists_ofBlocks_of_ok {r : Registry} (usable : r.isUsable = true) {p : Program}
    {v w : Json} (ends : (ofProgram r p v).result = .ok w) :
    ∃ bs, p = ofBlocks bs ∧ (ofTasks r (plan bs) v).result = .ok w := by
  obtain ⟨bs, rest, rfl, stuck⟩ := exists_ofBlocks_append p
  rcases ofProgram_cases usable bs stuck v with ⟨rfl, run⟩ | ⟨e, -, run⟩
  · rw [run, result_remark_bind] at ends
    exact ⟨bs, List.append_nil _, ends⟩
  · rw [run, result_remark_bind, result_bind_eq_ok_iff] at ends
    obtain ⟨u, -, failed⟩ := ends
    cases failed

/-- A run leaves the trace of the plan of its longest well-formed prefix, behind its opening
remark. -/
theorem trace_ofProgram {r : Registry} (usable : r.isUsable = true) (bs : List Block)
    {rest : Program} (stuck : IsStuck rest) (v : Json) :
    (ofProgram r (ofBlocks bs ++ rest) v).trace =
      .send (.diagnostic (startRemark (ofBlocks bs ++ rest))) :: (ofTasks r (plan bs) v).trace := by
  rcases ofProgram_cases usable bs stuck v with ⟨-, run⟩ | ⟨e, -, run⟩
  · rw [run]
    rfl
  · have failing : (ofTasks r (plan bs) v >>= fun _ => (fail e : Execution Json)).trace =
        (ofTasks r (plan bs) v).trace := by
      rw [trace_bind]
      cases (ofTasks r (plan bs) v).result <;> exact List.append_nil _
    rw [run, ← failing]
    rfl

/-- If the plan of the longest well-formed prefix halts, that is all there is to the run. -/
theorem ofProgram_of_halt {r : Registry} (usable : r.isUsable = true) {bs : List Block}
    {rest : Program} (stuck : IsStuck rest) {v : Json} {reason : Halt}
    (halts : (ofTasks r (plan bs) v).result = .error reason) :
    ofProgram r (ofBlocks bs ++ rest) v =
      remark (startRemark (ofBlocks bs ++ rest)) >>= fun _ => ofTasks r (plan bs) v := by
  rcases ofProgram_cases usable bs stuck v with ⟨-, run⟩ | ⟨e, -, run⟩
  · exact run
  · rw [run, bind_eq_self_of_error halts]

end RecipeEngine.Execution
