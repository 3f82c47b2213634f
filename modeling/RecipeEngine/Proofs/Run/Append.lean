import RecipeEngine.Proofs.Recipe.Search
import RecipeEngine.Proofs.Run.Feed
import RecipeEngine.Proofs.Run.Outcome
import RecipeEngine.Proofs.Run.Position

/-!
# One recipe after another

A run of two recipes in a row is related to the runs of the two.  Behind blocks, the second recipe
is run as it would be on its own, but for the positions in its failures (`course_ofBlocks_append`).
What stands behind a recipe has a part in its run only where a loop lacks its end
(`runFrom_append_left`).
-/

namespace RecipeEngine

/-- The same failure with the positions in it moved. -/
def ExecutionError.relocate (move : Nat → Nat) : ExecutionError → ExecutionError
  | .unmatchedLoop identifier position => .unmatchedLoop identifier (move position)
  | .orphanLoopEnd identifier position => .orphanLoopEnd identifier (move position)
  | .unsupportedInstruction position => .unsupportedInstruction (move position)
  | .loopIteration identifier iteration total source =>
      .loopIteration identifier iteration total (source.relocate move)
  | e => e

theorem ExecutionError.relocate_relocate (move move' : Nat → Nat) (e : ExecutionError) :
    (e.relocate move').relocate move = e.relocate fun position => move (move' position) := by
  induction e with
  | loopIteration identifier iteration total source ih => simp only [relocate, ih]
  | _ => rfl

theorem ExecutionError.root_relocate (move : Nat → Nat) (e : ExecutionError) :
    (e.relocate move).root = e.root.relocate move := by
  induction e with
  | loopIteration identifier iteration total source ih => exact ih
  | _ => rfl

/-! ## Failures without positions -/

theorem Application.Refusal.relocate_wrap {r : Registry} {a : Application} {v : Json}
    {cause : ExecutionError} (refusal : a.Refusal r v cause) (move : Nat → Nat) :
    (Iteration.wrap a.loop cause).relocate move = Iteration.wrap a.loop cause := by
  cases a.loop with
  | none => cases refusal <;> rfl
  | some i => cases refusal <;> rfl

namespace Execution

open Program

variable {r : Registry}

/-- No position is part of the failures of a plan. -/
theorem inContext_relocate_ofTasks (move : Nat → Nat) (ts : List Task) (v : Json) :
    (ofTasks r ts v).inContext (ExecutionError.relocate move) = ofTasks r ts v := by
  apply inContext_eq_self
  intro e failed
  obtain ⟨a, u, cause, refusal, rfl⟩ := exists_refusal_of_failed failed
  exact refusal.relocate_wrap move

theorem inContext_relocate_ofBlock (move : Nat → Nat) (b : Block) (v : Json) :
    (ofBlock r b v).inContext (ExecutionError.relocate move) = ofBlock r b v := by
  rw [ofBlock_eq_ofTasks, inContext_relocate_ofTasks]

theorem relocate_of_bodySteps {identifier : String} {body : Program} {e : ExecutionError}
    (refused : bodySteps identifier body = .error e) (move : Nat → Nat) : e.relocate move = e := by
  by_cases marked : ∃ i ∈ body, i.isLoopMarker = true
  · rw [bodySteps_of_marker marked] at refused
    cases refused
    rfl
  · have unmarked : ∀ i ∈ body, i.isLoopMarker = false := by simpa using marked
    by_cases steps : ∃ steps, body = List.map .step steps
    · obtain ⟨steps, rfl⟩ := steps
      rw [bodySteps_of_steps] at refused
      cases refused
    · rw [bodySteps_of_other unmarked (fun some same => steps ⟨some, same⟩)] at refused
      cases refused
      rfl

/-! ## Runs without their opening remark -/

/-- The run of a recipe without the remark that opens it. -/
def course (r : Registry) (p : Program) (v : Json) : Execution Json :=
  runFrom r p p.length ⟨0, v⟩ >>= fun s => pure s.value

theorem ofProgram_eq_course (usable : r.isUsable = true) (p : Program) (v : Json) :
    ofProgram r p v = remark (startRemark p) >>= fun _ => course r p v :=
  ofProgram_of_usable usable p v

/-! ## Instructions in front -/

theorem ofInstruction_append_right (r : Registry) (p q : Program) (k : Nat) (v : Json)
    (i : Instruction) :
    ofInstruction r (p ++ q) ⟨p.length + k, v⟩ i =
      (ofInstruction r q ⟨k, v⟩ i).inContext (ExecutionError.relocate (p.length + ·)) >>= fun s =>
        pure ⟨p.length + s.position, s.value⟩ := by
  cases i with
  | step s =>
    have plain := inContext_relocate_ofBlock (r := r) (p.length + ·) (.single s) v
    rw [ofBlock] at plain
    simp only [ofInstruction, inContext_bind, plain, inContext_pure, bind_assoc, pure_bind]
    rfl
  | loopEnd identifier => rfl
  | unsupported => rfl
  | loopStart identifier iterations =>
    simp only [ofInstruction, ofLoop, findLoopEnd_append_right]
    cases q.findLoopEnd k identifier with
    | none => rfl
    | some last =>
      have body : ((p ++ q).take (p.length + last)).drop (p.length + k + 1) =
          (q.take last).drop (k + 1) := by
        rw [List.take_length_add_append, Nat.add_assoc, List.drop_length_add_append]
      simp only [Option.map_some, body]
      cases checked : bodySteps identifier ((q.take last).drop (k + 1)) with
      | error e =>
        simp only [ofExcept, fail_bind, inContext_fail, relocate_of_bodySteps checked]
      | ok steps =>
        have plain :=
          inContext_relocate_ofBlock (r := r) (p.length + ·) (.loop identifier iterations steps) v
        rw [ofBlock] at plain
        simp only [ofExcept, pure_bind, inContext_bind, plain, inContext_pure, bind_assoc]
        rfl

theorem runFrom_append_right (r : Registry) (p q : Program) (rounds k : Nat) (v : Json) :
    runFrom r (p ++ q) rounds ⟨p.length + k, v⟩ =
      (runFrom r q rounds ⟨k, v⟩).inContext (ExecutionError.relocate (p.length + ·)) >>= fun s =>
        pure ⟨p.length + s.position, s.value⟩ := by
  induction rounds generalizing k v with
  | zero => rfl
  | succ rounds ih =>
    -- Both runs take the same instruction, and the search for the end of a loop looks forward only.
    have here : (p ++ q)[p.length + k]? = q[k]? := by
      rw [List.getElem?_append_right (Nat.le_add_right _ _), Nat.add_sub_cancel_left]
    simp only [runFrom, here]
    cases q[k]? with
    | none => rfl
    | some i =>
      simp only [ofInstruction_append_right, inContext_bind, bind_assoc, pure_bind, ih]

/-- Behind blocks that a run gets through, the rest of a recipe is run as if it stood alone. -/
theorem course_ofBlocks_append (r : Registry) (bs : List Block) (q : Program) (v : Json) :
    course r (ofBlocks bs ++ q) v =
      ofTasks r (plan bs) v >>= fun w =>
        (course r q w).inContext (ExecutionError.relocate ((ofBlocks bs).length + ·)) := by
  obtain ⟨more, length⟩ := Nat.exists_eq_add_of_le (length_le_length_ofBlocks bs)
  have rounds : (ofBlocks bs ++ q).length = bs.length + (q.length + more) := by
    rw [List.length_append, length]
    omega
  -- There are rounds to spare, since a block takes a single one.
  have behind : ∀ w, runFrom r (ofBlocks bs ++ q) (q.length + more) ⟨(ofBlocks bs).length, w⟩ =
      (runFrom r q q.length ⟨0, w⟩).inContext
          (ExecutionError.relocate ((ofBlocks bs).length + ·)) >>=
        fun s => pure ⟨(ofBlocks bs).length + s.position, s.value⟩ := by
    intro w
    have shifted := runFrom_append_right r (ofBlocks bs) q (q.length + more) 0 w
    rwa [Nat.add_zero, runFrom_add_of_enough (Nat.le_add_left _ _)] at shifted
  rw [course, rounds, runFrom_ofBlocks r (p := ofBlocks bs ++ q) (k := 0) rfl]
  simp only [Nat.zero_add, behind, course, inContext_bind, inContext_pure, bind_assoc, pure_bind]

/-! ## Instructions behind -/

/-- An instruction does not depend on what stands behind the recipe unless it is a loop start
without an end. -/
theorem ofInstruction_append_left {p : Program} {k : Nat} {i : Instruction}
    (here : p[k]? = some i) (r : Registry) (q : Program) (v : Json) :
    ofInstruction r (p ++ q) ⟨k, v⟩ i = ofInstruction r p ⟨k, v⟩ i ∨
      ∃ identifier, ofInstruction r p ⟨k, v⟩ i = fail (.unmatchedLoop identifier k) := by
  cases i with
  | step s => exact .inl rfl
  | loopEnd identifier => exact .inl rfl
  | unsupported => exact .inl rfl
  | loopStart identifier iterations =>
    simp only [ofInstruction, ofLoop]
    cases found : p.findLoopEnd k identifier with
    | none => exact .inr ⟨identifier, rfl⟩
    | some last =>
      have first := (findLoopEnd_eq_some_iff here).1 found
      have inside : k ≤ p.length := Nat.le_of_lt (Nat.lt_trans first.behind first.bound)
      have body : (p ++ q).take last = p.take last :=
        List.take_append_of_le_length (Nat.le_of_lt first.bound)
      simp only [findLoopEnd_append_left found inside q, body]
      exact .inl trivial

/-- What a run does before it comes to the end of its recipe, it also does if the recipe goes on.
So does a failure, other than that of a loop without an end. -/
theorem runFrom_append_left (r : Registry) (p q : Program) (rounds : Nat) (s : RunState) :
    (runFrom r p rounds s).trace <+: (runFrom r (p ++ q) rounds s).trace ∧
      ∀ reason, (runFrom r p rounds s).result = .error reason →
        (∀ identifier k, reason ≠ .failed (.unmatchedLoop identifier k)) →
        runFrom r (p ++ q) rounds s = runFrom r p rounds s := by
  induction rounds generalizing s with
  | zero => exact ⟨List.prefix_rfl, fun _ _ _ => rfl⟩
  | succ rounds ih =>
    cases here : p[s.position]? with
    | none =>
      rw [runFrom_of_end _ here]
      refine ⟨List.nil_prefix, ?_⟩
      intro reason halts
      cases halts
    | some i =>
      have here' : (p ++ q)[s.position]? = some i := by
        rw [List.getElem?_append_left (List.getElem?_eq_some_iff.1 here).1, here]
      simp only [runFrom, here, here']
      obtain unchanged | ⟨identifier, unmatched⟩ := ofInstruction_append_left here r q s.value
      · rw [unchanged]
        refine ⟨prefix_trace_bind fun next _ => (ih next).1, ?_⟩
        intro reason halts other
        apply bind_congr_of_ok
        intro next goes
        rw [(bind_of_ok goes).2] at halts
        exact (ih next).2 reason halts other
      · rw [unmatched, fail_bind]
        refine ⟨List.nil_prefix, ?_⟩
        intro reason halts other
        cases halts
        exact absurd rfl (other identifier s.position)

theorem course_append (r : Registry) (p q : Program) (v : Json) :
    course r (p ++ q) v =
      runFrom r (p ++ q) p.length ⟨0, v⟩ >>= fun s =>
        runFrom r (p ++ q) q.length s >>= fun s => pure s.value := by
  rw [course, List.length_append, runFrom_add, bind_assoc]

theorem prefix_trace_course (r : Registry) (p q : Program) (v : Json) :
    (course r p v).trace <+: (course r (p ++ q) v).trace := by
  rw [course_append, trace_bind]
  have same : (course r p v).trace = (runFrom r p p.length ⟨0, v⟩).trace := by
    rw [course, trace_bind]
    cases (runFrom r p p.length ⟨0, v⟩).result <;> exact List.append_nil _
  rw [same]
  exact (runFrom_append_left r p q p.length ⟨0, v⟩).1.trans (List.prefix_append _ _)

theorem course_append_of_error {p : Program} {v : Json} {reason : Halt}
    (halts : (course r p v).result = .error reason)
    (other : ∀ identifier k, reason ≠ .failed (.unmatchedLoop identifier k)) (q : Program) :
    course r (p ++ q) v = course r p v := by
  cases run : (runFrom r p p.length ⟨0, v⟩).result with
  | ok s =>
    rw [course, (bind_of_ok run).2] at halts
    cases halts
  | error reason' =>
    rw [course, (bind_of_error run).2] at halts
    cases halts
    rw [course_append, (runFrom_append_left r p q p.length ⟨0, v⟩).2 reason run other, course]
    apply bind_congr_of_ok
    intro s ends
    rw [run] at ends
    cases ends

/-! ## Sequential composition -/

/-- If the first of two recipes in a row ends with a value, the second one is run from that value,
and its failures have their positions moved by the length of the first.  If the first one fails,
the second has no part in the run, unless the failure is that of a loop without an end; even then
all that the first one does is done before anything else. -/
theorem ofProgram_append (r : Registry) (p q : Program) (v : Json) :
    (∀ w, (ofProgram r p v).result = .ok w →
      (ofProgram r (p ++ q) v).result =
          ((ofProgram r q w).inContext (ExecutionError.relocate (p.length + ·))).result ∧
        (ofProgram r (p ++ q) v).observed =
          (ofProgram r p v).observed ++ (ofProgram r q w).observed) ∧
    (∀ e, (ofProgram r p v).result = .error (.failed e) →
      (∀ identifier k, e ≠ .unmatchedLoop identifier k) →
      (ofProgram r (p ++ q) v).result = .error (.failed e) ∧
        (ofProgram r (p ++ q) v).observed = (ofProgram r p v).observed) ∧
    ∀ identifier k, (ofProgram r p v).result = .error (.failed (.unmatchedLoop identifier k)) →
      (ofProgram r p v).observed <+: (ofProgram r (p ++ q) v).observed := by
  by_cases usable : r.isUsable = true
  · have plain := ofProgram_eq_course usable
    refine ⟨?_, ?_, ?_⟩
    · intro w ends
      -- A run that ends with a value has gone through blocks only.
      obtain ⟨bs, rfl, through⟩ := exists_ofBlocks_of_ok usable ends
      have whole := bind_of_ok
        (f := fun w =>
          (course r q w).inContext (ExecutionError.relocate ((ofBlocks bs).length + ·)))
        through
      rw [← course_ofBlocks_append] at whole
      simp only [plain (ofBlocks bs ++ q), plain q, ofProgram_ofBlocks usable, inContext_bind,
        inContext_remark, result_remark_bind, observed_remark_bind]
      refine ⟨whole.2, ?_⟩
      rw [observed, whole.1, trace_inContext, List.filter_append]
      rfl
    · intro e failed other
      rw [plain p, result_remark_bind] at failed
      have same := course_append_of_error failed (by simpa using other) q
      simp only [plain, result_remark_bind, observed_remark_bind, same]
      exact ⟨failed, trivial⟩
    · intro identifier k _
      simp only [plain, observed_remark_bind]
      exact (prefix_trace_course r p q v).filter _
  · -- With a registry of no use, both runs fail at once and in the same way.
    simp only [ofProgram_of_unusable usable]
    refine ⟨?_, ?_, ?_⟩
    · intro w ends
      cases ends
    · intro e failed _
      exact ⟨failed, trivial⟩
    · intro identifier k failed
      cases failed

/-- A loop that lacks its end, behind a step. -/
def boxingUnended : Program := [.step ⟨"b", "box", 1⟩, .loopStart "a" 2]

theorem ofProgram_append_boxing :
    (ofProgram boxing [.step ⟨"b", "box", 1⟩] .null).result = .ok (.array [.null]) ∧
      (ofProgram boxing ([.step ⟨"b", "box", 1⟩] ++ [.loopEnd "a"]) .null).result =
        .error (.failed (.orphanLoopEnd "a" 1)) ∧
      (ofProgram boxing (boxingTwice ++ [.unsupported]) .null).result =
        (ofProgram boxing boxingTwice .null).result ∧
      (ofProgram boxing boxingUnended .null).result =
        .error (.failed (.unmatchedLoop "a" 1)) ∧
      (ofProgram boxing boxingUnended .null).observed <+:
        (ofProgram boxing (boxingUnended ++ [.loopEnd "a"]) .null).observed := by
  have through := (ofProgram_append boxing [.step ⟨"b", "box", 1⟩] [.loopEnd "a"] .null).1
    (.array [.null]) rfl
  have failed := (ofProgram_append boxing boxingTwice [.unsupported] .null).2.1
    (.loopIteration "a" 2 3 (.operationFailed "b" 1 1 "boxed twice")) rfl nofun
  have unended := (ofProgram_append boxing boxingUnended [.loopEnd "a"] .null).2.2 "a" 1 rfl
  exact ⟨rfl, through.1, failed.1, rfl, unended⟩

end Execution

end RecipeEngine
