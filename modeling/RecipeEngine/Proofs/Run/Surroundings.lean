import RecipeEngine.Proofs.Run.Append

/-!
# Steps between two recipes

What steps mean that stand between two recipes depends on the first of these.  It may be complete,
it may leave a loop open that holds steps only so far, or it may have a defect in front of them.
That a defect stays the same defect whatever steps there are (`exists_surroundings`) rests on the
search for the end of a loop, which goes past steps (`findEndFrom_past_row`).
-/

namespace RecipeEngine.Execution

open Program

/-- Where steps stand between the recipes `front` and `back`. -/
inductive Surroundings (front back : Program) : Prop where
  /-- The steps stand between blocks, or in front of a defect. -/
  | between (before : List Block) : front = ofBlocks before → Surroundings front back
  /-- The steps stand in the body of a loop. -/
  | within (before : List Block) (identifier : String) (count : UInt32)
      (first second : List Step) (after : Program) :
      front = ofBlocks before ++ .loopStart identifier count :: first.map .step →
      back = second.map .step ++ .loopEnd identifier :: after → Surroundings front back
  /-- The steps stand behind a defect, at the instruction `i`, and have no part in it. -/
  | behindDefect (before : List Block) (i : Instruction) (rest : Program) (e : ExecutionError) :
      front = ofBlocks before ++ i :: rest →
      (∀ move move' : Nat → Nat, move 0 = move' 0 → e.relocate move = e.relocate move') →
      (∀ (r : Registry) (steps : List Step) (v : Json),
        ofInstruction r (i :: rest ++ (steps.map .step ++ back)) ⟨0, v⟩ i = fail e) →
      Surroundings front back

/-- The position of a defect is the only one that its failure tells. -/
theorem relocate_congr_of_defect {p : Program} {k : Nat} {e : ExecutionError}
    (defect : Defect p k e) {move move' : Nat → Nat} (same : move k = move' k) :
    e.relocate move = e.relocate move' := by
  cases defect <;> simp only [ExecutionError.relocate, same]

/-- A defect other than a loop without an end is one whatever stands behind the recipe. -/
theorem ofInstruction_append_of_defect {i : Instruction} {rest : Program} {e : ExecutionError}
    (stuck : IsStuck (i :: rest)) (defect : Defect (i :: rest) 0 e)
    (other : ∀ identifier, e ≠ .unmatchedLoop identifier 0) (r : Registry) (back : Program)
    (v : Json) : ofInstruction r (i :: rest ++ back) ⟨0, v⟩ i = fail e := by
  obtain ⟨i', here, fails⟩ := ofInstruction_defect r defect stuck v
  cases here
  rcases ofInstruction_append_left (k := 0) (p := i :: rest) rfl r back v with
    same | ⟨identifier, unmatched⟩
  · rw [same, fails]
  · rw [fails] at unmatched
    cases unmatched
    exact absurd rfl (other identifier)

theorem findLoopEnd_cons (identifier : String) (count : UInt32) (p : Program) :
    findLoopEnd (.loopStart identifier count :: p) 0 identifier = findEndFrom identifier 1 1 p :=
  findLoopEnd_of_start rfl

theorem inner_cons (i : Instruction) (p : Program) (last : Nat) :
    Program.inner (i :: p) 0 (1 + last) = p.take last := by
  rw [Program.inner, Nat.add_comm 1, List.take_succ_cons, Nat.zero_add, List.drop_one,
    List.tail_cons]

/-- Steps behind a loop start that has no end in front of them are part of the body of the loop, or
the loop has a defect in which they have no part. -/
theorem exists_surroundings_of_open {identifier : String} {rest : Program}
    (missing : findEndFrom identifier 1 1 rest = none) (before : List Block) (count : UInt32)
    (back : Program) :
    Surroundings (ofBlocks before ++ .loopStart identifier count :: rest) back := by
  obtain ⟨remaining, isOpen, past⟩ := findEndFrom_past_row Nat.one_pos missing back
  have search : ∀ steps : List Step,
      findLoopEnd (.loopStart identifier count :: rest ++ (steps.map .step ++ back)) 0 identifier =
        (findEndFrom identifier 0 remaining back).map (1 + rest.length + steps.length + ·) := by
    intro steps
    rw [List.cons_append, findLoopEnd_cons, past, ← findEndFrom_add, Nat.add_zero]
  cases found : findEndFrom identifier 0 remaining back with
  | none =>
    -- The loop has no end at all.
    refine .behindDefect before _ rest (.unmatchedLoop identifier 0) rfl ?_ ?_
    · intro move move' same
      rw [ExecutionError.relocate, ExecutionError.relocate, same]
    · intro r steps v
      simp only [ofInstruction, ofLoop, search, found, Option.map_none]
  | some k =>
    have body : ∀ steps : List Step, Program.inner
        (.loopStart identifier count :: rest ++ (steps.map .step ++ back)) 0
          (1 + rest.length + steps.length + k) = rest ++ (steps.map .step ++ back.take k) := by
      intro steps
      rw [List.cons_append, Nat.add_assoc 1, Nat.add_assoc 1, inner_cons, Nat.add_assoc,
        List.take_length_add_append, ← List.length_map (f := Instruction.step),
        List.take_length_add_append]
    -- Whether the body holds steps only is decided by what is in front of the steps and behind.
    rcases bodySteps_row identifier rest (back.take k) with
      ⟨first, second, rfl, inBack⟩ | ⟨e, refused⟩
    · have spec := findEndFrom_spec identifier back 0 isOpen
      rw [found] at spec
      obtain ⟨j, rfl, isEnd, -⟩ := spec
      rw [Nat.zero_add] at inBack
      obtain ⟨bound, endIs⟩ := List.getElem?_eq_some_iff.1 isEnd
      refine .within before identifier count first second (back.drop (j + 1)) rfl ?_
      rw [← inBack, ← endIs, ← List.drop_eq_getElem_cons bound, List.take_append_drop]
    · refine .behindDefect before _ rest e rfl ?_ ?_
      · intro move move' _
        rw [relocate_of_bodySteps (refused []), relocate_of_bodySteps (refused [])]
      · intro r steps v
        apply ofLoop_of_refused r count v
        · rw [search, found, Option.map_some]
        · rw [body, refused]

theorem exists_surroundings (front back : Program) : Surroundings front back := by
  obtain ⟨before, rest, rfl, stuck⟩ := exists_ofBlocks_append front
  cases rest with
  | nil => exact .between before (List.append_nil _)
  | cons i rest =>
    obtain ⟨e, defect⟩ := exists_defect (p := i :: rest) (k := 0) stuck (Nat.succ_pos _)
    -- Only what a loop without an end amounts to may depend on what stands behind.
    by_cases unmatched : ∃ identifier, e = .unmatchedLoop identifier 0
    · obtain ⟨identifier, rfl⟩ := unmatched
      cases defect with
      | unmatched isStart never =>
        cases isStart
        refine exists_surroundings_of_open ?_ before _ back
        rw [← findLoopEnd_cons]
        exact (findLoopEnd_eq_none_iff rfl).2 never
    · refine .behindDefect before i rest e rfl ?_ ?_
      · exact fun move move' same => relocate_congr_of_defect defect same
      · intro r steps v
        have other : ∀ identifier, e ≠ .unmatchedLoop identifier 0 := fun identifier same =>
          unmatched ⟨identifier, same⟩
        exact ofInstruction_append_of_defect stuck defect other r _ v

/-! ## Runs -/

theorem row_in_loop (before : List Block) (identifier : String) (count : UInt32)
    (first row second : List Step) (after : Program) :
    (ofBlocks before ++ .loopStart identifier count :: first.map .step) ++
        (row.map .step ++ (second.map .step ++ .loopEnd identifier :: after)) =
      ofBlocks (before ++ [.loop identifier count (first ++ (row ++ second))]) ++ after := by
  simp [Block.instructions]

/-- Behind blocks, an instruction that fails ends the run. -/
theorem course_of_refused {r : Registry} (before : List Block) {i : Instruction} {p : Program}
    {e : ExecutionError} (fails : ∀ v, ofInstruction r (i :: p) ⟨0, v⟩ i = fail e) (v : Json) :
    course r (ofBlocks before ++ i :: p) v =
      ofTasks r (plan before) v >>= fun _ =>
        fail (e.relocate ((ofBlocks before).length + ·)) := by
  have first : ∀ w, course r (i :: p) w = fail e := by
    intro w
    rw [course, List.length_cons, runFrom]
    simp only [List.getElem?_cons_zero, fails, fail_bind]
  simp only [course_ofBlocks_append, first, inContext_fail]

end RecipeEngine.Execution
