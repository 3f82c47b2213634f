import RecipeEngine.Proofs.Run.Append
import RecipeEngine.Proofs.Run.Progress

/-!
# Loops written out

A loop around steps may be replaced by its body, repeated as often as the loop asks for
(`inline_loop`).  The plans of both ask for the same applications, but for the loop that these
belong to (`unlooped_applications_loop`).  That loop shows only in the updates of progress and in
the wrapping of a failure, so what is *silent* of a run and the root of its failure stay.
-/

namespace RecipeEngine

/-- An application as it would be outside any loop. -/
def Application.unlooped (a : Application) : Application := { a with loop := none }

def Task.unlooped : Task → Task
  | .announce i => .announce i
  | .apply a => .apply a.unlooped

/-- The applications that a step outside any loop asks for. -/
def Step.applications (s : Step) : List Application :=
  (List.range s.repetitions).map fun done => ⟨s, done + 1, none⟩

/-! ## What the plans ask for -/

theorem Step.unlooped_tasks (s : Step) (loop : Option Iteration) :
    ((s.tasks loop).filterMap Task.application?).map Application.unlooped = s.applications := by
  rw [Step.tasks, List.filterMap_map, Step.applications]
  simp [Function.comp_def, Task.application?, Application.unlooped]

theorem filterMap_map_unlooped (ts : List Task) :
    (ts.map Task.unlooped).filterMap Task.application? =
      (ts.filterMap Task.application?).map Application.unlooped := by
  rw [List.filterMap_map, List.map_filterMap]
  congr 1
  funext t
  cases t <;> rfl

theorem unlooped_applications_singles (steps : List Step) :
    (applicationSequence (steps.map .single)).map Application.unlooped =
      steps.flatMap Step.applications := by
  rw [applicationSequence_eq_flatMap, List.flatMap_map, List.map_flatMap]
  congr 1
  funext s
  exact s.unlooped_tasks none

/-- A loop asks for the applications of its body, as many times as it is to be gone through. -/
theorem unlooped_applications_loop (identifier : String) (count : UInt32) (body : List Step) :
    (Block.loop identifier count body).applications.map Application.unlooped =
      (List.replicate (times count) body).flatten.flatMap Step.applications := by
  have iteration : ∀ i : Iteration, (i.applications body).map Application.unlooped =
      body.flatMap Step.applications := by
    intro i
    rw [Iteration.applications, Iteration.tasks, List.filterMap_cons, Task.application?,
      List.filterMap_flatMap, List.map_flatMap]
    simp only [Step.unlooped_tasks]
  have iterations : (Block.loop identifier count body).iterations.length = times count := by
    rw [Block.iterations, List.length_map, List.length_range]
  calc (Block.loop identifier count body).applications.map Application.unlooped
      = (Block.loop identifier count body).iterations.flatMap
          fun _ => body.flatMap Step.applications := by
        rw [applications_loop, List.map_flatMap]
        simp only [iteration]
    _ = (List.replicate (times count) (body.flatMap Step.applications)).flatten := by
        rw [List.flatMap_def, List.map_const', iterations]
    _ = (List.replicate (times count) body).flatten.flatMap Step.applications := by
        rw [List.flatten_eq_flatMap, List.flatten_eq_flatMap, List.flatMap_assoc,
          List.flatMap_replicate, List.flatMap_replicate]
        rfl

/-- Behind any blocks, a loop asks for the applications of its body written out. -/
theorem unlooped_applications_inlined (before : List Block) (identifier : String) (count : UInt32)
    (body : List Step) :
    (applicationSequence (before ++ [.loop identifier count body])).map Application.unlooped =
      (applicationSequence
        (before ++ (List.replicate (times count) body).flatten.map .single)).map
          Application.unlooped := by
  rw [applicationSequence_append, applicationSequence_append, List.map_append, List.map_append,
    unlooped_applications_singles, applicationSequence_eq_flatMap [_], List.flatMap_singleton,
    unlooped_applications_loop]

namespace Execution

open Program

variable {α β : Type} {r : Registry}

/-! ## Executions without what they send -/

/-- What an execution does apart from what it sends. -/
def silent (x : Execution α) : Execution α :=
  ⟨x.trace.filter fun action => action.application?.isSome, x.result⟩

theorem applications_silent (x : Execution α) : x.silent.applications = x.applications := by
  rw [applications_eq, applications_eq, silent, List.filterMap_filter]
  congr 1
  funext action
  cases action <;> rfl

theorem silent_bind (x : Execution α) (f : α → Execution β) :
    (x >>= f).silent = x.silent >>= fun a => (f a).silent := by
  obtain ⟨trace, result⟩ := x
  cases result with
  | error reason => rfl
  | ok a =>
    show silent ⟨trace ++ (f a).trace, (f a).result⟩ = ⟨_ ++ (f a).silent.trace, (f a).result⟩
    rw [silent, List.filter_append]
    rfl

/-- Announcements are sent and nothing else, so they have no part in what is silent of a plan. -/
theorem silent_ofTasks (r : Registry) (ts : List Task) (v : Json) :
    (ofTasks r ts v).silent =
      (ofTasks r ((ts.filterMap Task.application?).map .apply) v).silent := by
  induction ts generalizing v with
  | nil => rfl
  | cons t ts ih =>
    cases t with
    | announce i => exact ih v
    | apply a =>
      simp only [List.filterMap_cons, Task.application?, List.map_cons, ofTasks_cons, silent_bind,
        ih]

theorem silent_ofTasks_congr {ts ts' : List Task}
    (same : ts.filterMap Task.application? = ts'.filterMap Task.application?) (v : Json) :
    (ofTasks r ts v).silent = (ofTasks r ts' v).silent := by
  rw [silent_ofTasks, same, ← silent_ofTasks]

/-! ## The roots of failures -/

theorem inContext_root_ofApplication (r : Registry) (a : Application) (v : Json) :
    (ofApplication r a v).inContext ExecutionError.root = ofApplication r a.unlooped v := by
  have same : a.unlooped.key = a.key := rfl
  cases found : r.lookup a.key with
  | none =>
    rw [ofApplication_of_missing v found, ofApplication_of_missing v (same ▸ found), inContext_fail,
      root_wrap a.loop rfl]
    rfl
  | some f =>
    rw [ofApplication_of_found v found, ofApplication_of_found v (same ▸ found)]
    cases output : f v with
    | value w => rfl
    | breakdown words => rfl
    | failure failure =>
      simp only [inContext]
      rw [root_wrap a.loop rfl]
      rfl

/-- A plan without its loops fails with the roots of the failures of the plan. -/
theorem inContext_root_ofTasks (r : Registry) (ts : List Task) (v : Json) :
    (ofTasks r ts v).inContext ExecutionError.root = ofTasks r (ts.map Task.unlooped) v := by
  induction ts generalizing v with
  | nil => rfl
  | cons t ts ih =>
    have first : (ofTask r v t).inContext ExecutionError.root = ofTask r v t.unlooped := by
      cases t with
      | announce i => rfl
      | apply a => exact inContext_root_ofApplication r a v
    simp only [List.map_cons, ofTasks_cons, inContext_bind, first, ih]

theorem silent_root_ofTasks {bs bs' : List Block}
    (same : (applicationSequence bs).map Application.unlooped =
      (applicationSequence bs').map Application.unlooped) (v : Json) :
    ((ofTasks r (plan bs) v).inContext ExecutionError.root).silent =
      ((ofTasks r (plan bs') v).inContext ExecutionError.root).silent := by
  rw [inContext_root_ofTasks, inContext_root_ofTasks]
  apply silent_ofTasks_congr
  rw [filterMap_map_unlooped, filterMap_map_unlooped]
  exact same

/-- Blocks in front of a recipe may be replaced by blocks that ask for the same applications, loops
apart.  The positions behind them move with their length. -/
theorem silent_root_course {bs bs' : List Block}
    (same : (applicationSequence bs).map Application.unlooped =
      (applicationSequence bs').map Application.unlooped) {move : Nat → Nat}
    (moves : ∀ n, move ((ofBlocks bs).length + n) = (ofBlocks bs').length + n) (back : Program)
    (v : Json) :
    ((course r (ofBlocks bs ++ back) v).inContext fun e => e.root.relocate move).silent =
      ((course r (ofBlocks bs' ++ back) v).inContext ExecutionError.root).silent := by
  have positions : ∀ e : ExecutionError,
      (e.relocate ((ofBlocks bs).length + ·)).root.relocate move =
        (e.relocate ((ofBlocks bs').length + ·)).root := by
    intro e
    simp only [← ExecutionError.root_relocate, ExecutionError.relocate_relocate, moves]
  -- No position is part of what goes wrong in the blocks themselves.
  have front := silent_root_ofTasks (r := r) same v
  rw [course_ofBlocks_append, course_ofBlocks_append, inContext_bind, inContext_bind,
    ← inContext_inContext ExecutionError.root (ExecutionError.relocate move),
    inContext_root_ofTasks, inContext_relocate_ofTasks, ← inContext_root_ofTasks, silent_bind,
    silent_bind, front]
  simp only [inContext_inContext, positions]

/-- How two executions end that are alike but for the positions in the roots of their failures. -/
theorem ends_of_silent_root {x y : Execution α} {move : Nat → Nat}
    (same : (x.inContext fun e => e.root.relocate move).silent =
      (y.inContext ExecutionError.root).silent) :
    (∃ a, x.result = .ok a ∧ y.result = .ok a) ∨
      (∃ e e', x.result = .error (.failed e) ∧ y.result = .error (.failed e') ∧
        e.root.relocate move = e'.root) ∨
      ∃ words, x.result = .error (.brokeDown words) ∧ y.result = .error (.brokeDown words) := by
  have ends := congrArg result same
  simp only [silent] at ends
  obtain ⟨trace, result⟩ := x
  obtain ⟨trace', result'⟩ := y
  cases result with
  | ok a =>
    cases result' with
    | ok a' =>
      cases ends
      exact .inl ⟨a, rfl, rfl⟩
    | error reason' => cases reason' <;> cases ends
  | error reason =>
    cases result' with
    | ok a' => cases reason <;> cases ends
    | error reason' =>
      cases reason with
      | failed e =>
        cases reason' with
        | failed e' => exact .inr (.inl ⟨e, e', rfl, rfl, by simpa [inContext] using ends⟩)
        | brokeDown words' => cases ends
      | brokeDown words =>
        cases reason' with
        | failed e' => cases ends
        | brokeDown words' =>
          cases ends
          exact .inr (.inr ⟨words, rfl, rfl⟩)

/-! ## Writing a loop out -/

/-- The body of a loop, repeated as often as the loop asks for, may stand in place of the loop
behind any blocks and in front of anything.  The same functions are applied to the same values, and
the run ends alike: with the same value, or with the same failure at the root, the positions behind
the loop being moved. -/
theorem inline_loop (r : Registry) (before : List Block) (identifier : String) (count : UInt32)
    (body : List Step) (back : Program) (v : Json) :
    let front := ofBlocks before
    let looped := ofProgram r
      (front ++ (.loopStart identifier count :: (body.map .step ++ .loopEnd identifier :: back))) v
    let inlined := ofProgram r
      (front ++ ((List.replicate (times count) body).flatten.map .step ++ back)) v
    let move := fun position =>
      if front.length + body.length + 2 ≤ position then
        position - (body.length + 2) + times count * body.length
      else position
    looped.applications = inlined.applications ∧
      ((∃ w, looped.result = .ok w ∧ inlined.result = .ok w) ∨
        (∃ e e', looped.result = .error (.failed e) ∧ inlined.result = .error (.failed e') ∧
          e.root.relocate move = e'.root) ∨
        ∃ words, looped.result = .error (.brokeDown words) ∧
          inlined.result = .error (.brokeDown words)) := by
  intro front looped inlined move
  let steps := (List.replicate (times count) body).flatten
  have first : front ++ (.loopStart identifier count ::
      (body.map .step ++ .loopEnd identifier :: back)) =
      ofBlocks (before ++ [.loop identifier count body]) ++ back := by
    simp [front, Block.instructions]
  have second : front ++ (steps.map .step ++ back) =
      ofBlocks (before ++ steps.map .single) ++ back := by
    rw [ofBlocks_append, ofBlocks_singles, List.append_assoc]
  have same := unlooped_applications_inlined before identifier count body
  have moves : ∀ n, move ((ofBlocks (before ++ [.loop identifier count body])).length + n) =
      (ofBlocks (before ++ steps.map .single)).length + n := by
    intro n
    have length : (ofBlocks (before ++ [.loop identifier count body])).length =
        front.length + body.length + 2 := by
      simp [front, Block.instructions]
      omega
    have length' : (ofBlocks (before ++ steps.map .single)).length =
        front.length + times count * body.length := by
      rw [ofBlocks_append, ofBlocks_singles]
      simp [front, steps]
    rw [length, length']
    simp only [move]
    rw [if_pos (Nat.le_add_right _ _)]
    omega
  by_cases usable : r.isUsable = true
  · -- The blocks differ, but not in what is silent of them; what follows them is the same.
    have alike := silent_root_course (r := r) same moves back v
    rw [← first, ← second] at alike
    have applied := congrArg applications alike
    simp only [applications_silent, applications_inContext] at applied
    simp only [looped, inlined, ofProgram_eq_course usable, applications_remark_bind,
      result_remark_bind]
    exact ⟨applied, ends_of_silent_root alike⟩
  · simp only [looped, inlined, ofProgram_of_unusable usable]
    exact ⟨trivial, .inr (.inl ⟨_, _, rfl, rfl, rfl⟩)⟩

end Execution

end RecipeEngine
