import RecipeEngine.Proofs.Recipe.Iteration
import RecipeEngine.Proofs.Run.Surroundings

/-!
# Repetitions written out

A step that is to be repeated may be replaced by as many copies of it that are not, wherever it
stands (`ofProgram_copies`).  Both recipes ask for the same applications; the repetitions are
numbered in the first only, which shows where the step refuses a value.

Which failures are the step's own is told by its name.  The two recipes are compared for all names
that the step may have, and a failure is the step's own if it changes with the name.
-/

namespace RecipeEngine

/-- A halt of a run in which a step is to be repeated, and the halt of the run in which copies of
the step stand in its place, for every name of the step.  Positions are moved by `move`. -/
inductive HaltsAlike (key : String) (count : UInt32) (move : Nat → Nat) :
    (String → Halt) → (String → Halt) → Prop where
  /-- A function breaks down. -/
  | brokeDown (words : String) :
      HaltsAlike key count move (fun _ => .brokeDown words) fun _ => .brokeDown words
  /-- Something other than the step fails. -/
  | elsewhere (e : ExecutionError) :
      HaltsAlike key count move (fun _ => .failed e) fun _ => .failed (e.relocate move)
  /-- The function of the step is unknown. -/
  | missing (loop : Option Iteration) :
      HaltsAlike key count move
        (fun name => .failed (Iteration.wrap loop (.unknownFunction name key)))
        fun name => .failed (Iteration.wrap loop (.unknownFunction name key))
  /-- The function of the step refuses a value. -/
  | refused (loop : Option Iteration) (repetition : Nat) (detail : String) :
      1 ≤ repetition → repetition ≤ times count →
      HaltsAlike key count move
        (fun name => .failed
          (Iteration.wrap loop (.operationFailed name repetition (times count) detail)))
        fun name => .failed (Iteration.wrap loop (.operationFailed name 1 1 detail))

namespace Execution

open Program

variable {α β : Type}

/-- For every name of a step that is to be repeated, `x` and `y` do the same but for remarks, and
they end with one value or halt alike. -/
structure AreAlike (key : String) (count : UInt32) (move : Nat → Nat)
    (x y : String → Execution α) : Prop where
  observed : ∀ name, (x name).observed = (y name).observed
  ends : (∃ a, ∀ name, (x name).result = .ok a ∧ (y name).result = .ok a) ∨
    ∃ reason reason', HaltsAlike key count move reason reason' ∧
      ∀ name, (x name).result = .error (reason name) ∧ (y name).result = .error (reason' name)

section

variable {key : String} {count : UInt32} {move : Nat → Nat}

/-! ## Executions that are alike -/

theorem AreAlike.bind {x y : String → Execution α} {f g : String → α → Execution β}
    (first : AreAlike key count move x y)
    (second : ∀ a, AreAlike key count move (fun name => f name a) fun name => g name a) :
    AreAlike key count move (fun name => x name >>= f name) fun name => y name >>= g name := by
  obtain ⟨observed, ⟨a, ended⟩ | ⟨reason, reason', alike, halted⟩⟩ := first
  · obtain ⟨observed', ends'⟩ := second a
    have results : ∀ name, (x name >>= f name).result = (f name a).result ∧
        (y name >>= g name).result = (g name a).result := fun name =>
      ⟨(bind_of_ok (ended name).1).2, (bind_of_ok (ended name).2).2⟩
    refine ⟨fun name => ?_, ?_⟩
    · rw [observed_bind_of_ok (ended name).1, observed_bind_of_ok (ended name).2, observed,
        observed']
    · simpa only [results] using ends'
  · refine ⟨fun name => ?_, .inr ⟨reason, reason', alike, fun name => ?_⟩⟩
    · rw [observed_bind_of_error (halted name).1, observed_bind_of_error (halted name).2, observed]
    · exact ⟨(bind_of_error (halted name).1).2, (bind_of_error (halted name).2).2⟩

theorem AreAlike.remark {x y : String → Execution α} (alike : AreAlike key count move x y)
    (words words' : String → String) :
    AreAlike key count move (fun name => Execution.remark (words name) >>= fun _ => x name)
      fun name => Execution.remark (words' name) >>= fun _ => y name :=
  ⟨alike.observed, alike.ends⟩

/-- An execution in which the step has no part, and the same one with positions moved. -/
theorem areAlike_relocate (x : Execution α) :
    AreAlike key count move (fun _ => x) fun _ => x.inContext (ExecutionError.relocate move) := by
  refine ⟨fun _ => by rw [observed, observed, trace_inContext], ?_⟩
  obtain ⟨trace, result⟩ := x
  cases result with
  | ok a => exact .inl ⟨a, fun _ => ⟨rfl, rfl⟩⟩
  | error reason =>
    cases reason with
    | failed e => exact .inr ⟨_, _, .elsewhere e, fun _ => ⟨rfl, rfl⟩⟩
    | brokeDown words => exact .inr ⟨_, _, .brokeDown words, fun _ => ⟨rfl, rfl⟩⟩

theorem areAlike_of_fixed {x : Execution α}
    (fixed : x.inContext (ExecutionError.relocate move) = x) :
    AreAlike key count move (fun _ => x) fun _ => x := by
  have alike := @areAlike_relocate _ key count move x
  rwa [fixed] at alike

theorem areAlike_ofTasks (r : Registry) (ts : List Task) (v : Json) :
    AreAlike key count move (fun _ => ofTasks r ts v) fun _ => ofTasks r ts v :=
  areAlike_of_fixed (inContext_relocate_ofTasks move ts v)

theorem areAlike_append {r : Registry} {ts us ts' us' : String → List Task}
    (first : ∀ v, AreAlike key count move (fun name => ofTasks r (ts name) v)
      fun name => ofTasks r (us name) v)
    (second : ∀ v, AreAlike key count move (fun name => ofTasks r (ts' name) v)
      fun name => ofTasks r (us' name) v) (v : Json) :
    AreAlike key count move (fun name => ofTasks r (ts name ++ ts' name) v)
      fun name => ofTasks r (us name ++ us' name) v := by
  simp only [ofTasks_append]
  exact (first v).bind second

theorem areAlike_behind {n n' : Nat} (moves : ∀ k, move (n + k) = n' + k) (x : Execution α) :
    AreAlike key count move (fun _ => x.inContext (ExecutionError.relocate (n + ·)))
      fun _ => x.inContext (ExecutionError.relocate (n' + ·)) := by
  have alike := @areAlike_relocate _ key count move
    (x.inContext (ExecutionError.relocate (n + ·)))
  rw [inContext_inContext] at alike
  simp only [ExecutionError.relocate_relocate, moves] at alike
  exact alike

/-! ## The step and its copies -/

/-- Numbered or not, a repetition applies the same function. -/
theorem areAlike_application (r : Registry) (loop : Option Iteration) {repetition : Nat}
    (positive : 1 ≤ repetition) (bound : repetition ≤ times count) (v : Json) :
    AreAlike key count move
      (fun name => ofApplication r ⟨⟨name, key, count⟩, repetition, loop⟩ v)
      fun name => ofApplication r ⟨⟨name, key, 1⟩, 1, loop⟩ v := by
  cases found : r.lookup key with
  | none =>
    have missing : ∀ name (count : UInt32) (repetition : Nat),
        ofApplication r ⟨⟨name, key, count⟩, repetition, loop⟩ v =
          fail (Iteration.wrap loop (.unknownFunction name key)) := fun name count repetition =>
      ofApplication_of_missing v found
    simp only [missing]
    exact ⟨fun _ => rfl, .inr ⟨_, _, .missing loop, fun _ => ⟨rfl, rfl⟩⟩⟩
  | some f =>
    have applied := fun name (count : UInt32) (repetition : Nat) =>
      ofApplication_of_found (a := ⟨⟨name, key, count⟩, repetition, loop⟩) v found
    simp only [applied]
    refine ⟨fun _ => rfl, ?_⟩
    cases f v with
    | value w => exact .inl ⟨w, fun _ => ⟨rfl, rfl⟩⟩
    | failure failure =>
      exact .inr ⟨_, _, .refused loop repetition failure.error positive bound,
        fun _ => ⟨rfl, rfl⟩⟩
    | breakdown words => exact .inr ⟨_, _, .brokeDown words, fun _ => ⟨rfl, rfl⟩⟩

theorem areAlike_repetitions (r : Registry) (loop : Option Iteration) {done left : Nat}
    (whole : done + left = times count) (v : Json) :
    AreAlike key count move
      (fun name => ofTasks r
        ((List.range' done left).map fun done => .apply ⟨⟨name, key, count⟩, done + 1, loop⟩) v)
      fun name => ofTasks r
        ((List.replicate left (Step.mk name key 1)).flatMap (Step.tasks loop)) v := by
  induction left generalizing done v with
  | zero => exact areAlike_ofTasks r [] v
  | succ left ih =>
    -- A copy that is not repeated is one task, the first of its own repetitions.
    have copy : ∀ name, Step.tasks loop ⟨name, key, 1⟩ =
        [.apply ⟨⟨name, key, 1⟩, 1, loop⟩] := fun _ => rfl
    simp only [List.range'_succ, List.map_cons, ofTasks_cons, List.replicate_succ,
      List.flatMap_cons, copy, List.singleton_append]
    exact (areAlike_application r loop (Nat.le_add_left 1 done) (by omega) v).bind fun w =>
      ih (by omega) w

theorem areAlike_copies (r : Registry) (loop : Option Iteration) (v : Json) :
    AreAlike key count move
      (fun name => ofTasks r ([Step.mk name key count].flatMap (Step.tasks loop)) v)
      fun name => ofTasks r
        ((List.replicate (times count) (Step.mk name key 1)).flatMap (Step.tasks loop)) v := by
  have step : ∀ name, Step.tasks loop ⟨name, key, count⟩ =
      (List.range' 0 (times count)).map fun done => .apply ⟨⟨name, key, count⟩, done + 1, loop⟩ := by
    intro name
    rw [Step.tasks, List.range_eq_range']
    rfl
  simp only [List.flatMap_singleton, step]
  exact areAlike_repetitions r loop (Nat.zero_add _) v

/-! ## Rows of steps in recipes -/

/-- Blocks whose plans are alike may stand in for each other, whatever stands behind them. -/
theorem areAlike_course {r : Registry} {bs bs' : String → List Block} {n n' : Nat}
    (length : ∀ name, (ofBlocks (bs name)).length = n)
    (length' : ∀ name, (ofBlocks (bs' name)).length = n') (moves : ∀ k, move (n + k) = n' + k)
    (plans : ∀ v, AreAlike key count move (fun name => ofTasks r (plan (bs name)) v)
      fun name => ofTasks r (plan (bs' name)) v)
    (back : Program) (v : Json) :
    AreAlike key count move (fun name => course r (ofBlocks (bs name) ++ back) v)
      fun name => course r (ofBlocks (bs' name) ++ back) v := by
  simp only [course_ofBlocks_append, length, length']
  exact (plans v).bind fun w => areAlike_behind moves (course r back w)

end

section

variable {key : String} {count : UInt32} {move : Nat → Nat} {r : Registry}
  {row row' : String → List Step}
  (alike : ∀ loop v,
    AreAlike key count move (fun name => ofTasks r ((row name).flatMap (Step.tasks loop)) v)
      fun name => ofTasks r ((row' name).flatMap (Step.tasks loop)) v)

include alike

theorem areAlike_body (loop : Option Iteration) (first second : List Step) (v : Json) :
    AreAlike key count move
      (fun name => ofTasks r ((first ++ (row name ++ second)).flatMap (Step.tasks loop)) v)
      fun name => ofTasks r ((first ++ (row' name ++ second)).flatMap (Step.tasks loop)) v := by
  simp only [List.flatMap_append]
  exact areAlike_append (areAlike_ofTasks r _)
    (areAlike_append (alike loop) (areAlike_ofTasks r _)) v

theorem areAlike_iterations (is : List Iteration) (first second : List Step) (v : Json) :
    AreAlike key count move
      (fun name => ofTasks r (is.flatMap (Iteration.tasks (first ++ (row name ++ second)))) v)
      fun name => ofTasks r (is.flatMap (Iteration.tasks (first ++ (row' name ++ second)))) v := by
  induction is generalizing v with
  | nil => exact areAlike_ofTasks r [] v
  | cons i is ih =>
    have iteration : ∀ body : List Step,
        i.tasks body = [.announce i] ++ body.flatMap (Step.tasks (some i)) := fun _ => rfl
    simp only [List.flatMap_cons, iteration]
    exact areAlike_append
      (areAlike_append (areAlike_ofTasks r _) (areAlike_body alike (some i) first second)) ih v

/-- Rows of steps that are alike may stand in for each other between any two recipes. -/
theorem areAlike_between {n n' : Nat} (length : ∀ name, (row name).length = n)
    (length' : ∀ name, (row' name).length = n') (front back : Program)
    (keeps : ∀ position ≤ front.length, move position = position)
    (moves : ∀ k, move (front.length + n + k) = front.length + n' + k) (v : Json) :
    AreAlike key count move
      (fun name => course r (front ++ ((row name).map .step ++ back)) v)
      fun name => course r (front ++ ((row' name).map .step ++ back)) v := by
  obtain ⟨before, rfl⟩ | ⟨before, identifier, iterations, first, second, after, rfl, rfl⟩ |
    ⟨before, i, rest, e, rfl, atFront, fails⟩ := exists_surroundings front back
  · -- Each step of the rows is a block.
    have single : ∀ steps : List Step, ofBlocks before ++ (steps.map .step ++ back) =
        ofBlocks (before ++ steps.map .single) ++ back := by
      intro steps
      rw [ofBlocks_append, ofBlocks_singles, List.append_assoc]
    simp only [single]
    refine areAlike_course ?_ ?_ moves ?_ back v
    · simp [ofBlocks_singles, length]
    · simp [ofBlocks_singles, length']
    · simp only [plan_append, plan_singles]
      exact areAlike_append (areAlike_ofTasks r _) (alike none)
  · -- The rows are part of the body of a loop.
    simp only [row_in_loop]
    simp only [List.length_append, List.length_cons, List.length_map] at moves
    have total : ∀ (body : List Step) (m : Nat), body.length = m →
        (ofBlocks (before ++ [.loop identifier iterations (first ++ (body ++ second))])).length =
          (ofBlocks before).length + (first.length + 1) + m + (second.length + 1) := by
      rintro body m rfl
      simp [Block.instructions]
      omega
    refine areAlike_course (fun name => total _ n (length name))
      (fun name => total _ n' (length' name)) ?_ ?_ after v
    · intro k
      rw [Nat.add_assoc, moves, Nat.add_assoc _ (second.length + 1)]
    · simp only [plan_append, plan_cons, plan_nil, List.append_nil, tasks_loop]
      exact areAlike_append (areAlike_ofTasks r _) (areAlike_iterations alike _ first second)
  · -- The rows are not come to.
    have course_eq : ∀ steps : List Step,
        course r (ofBlocks before ++ i :: rest ++ (steps.map .step ++ back)) v =
          ofTasks r (plan before) v >>= fun _ =>
            fail (e.relocate ((ofBlocks before).length + ·)) := by
      intro steps
      rw [List.append_assoc, List.cons_append]
      exact course_of_refused before (fails r steps) v
    simp only [course_eq]
    refine (areAlike_ofTasks r _ v).bind fun _ => areAlike_of_fixed ?_
    rw [inContext_fail, ExecutionError.relocate_relocate,
      atFront _ ((ofBlocks before).length + ·) (keeps _ (by simp))]

end

/-! ## Writing repetitions out -/

/-- Copies of a step, as many as it asks for repetitions, may stand in place of the step between any
two recipes.  The same functions are applied to the same values, the same progress is reported, and
the run ends alike: with the same value, or with the same failure but for the positions behind the
step and the number of the repetition in which the step refuses. -/
theorem ofProgram_copies (r : Registry) (front back : Program) (key : String) (count : UInt32)
    (v : Json) :
    let repeated := fun name => ofProgram r (front ++ .step ⟨name, key, count⟩ :: back) v
    let copied := fun name => ofProgram r
      (front ++ (List.replicate (times count) (.step ⟨name, key, 1⟩) ++ back)) v
    let move := fun position =>
      if front.length < position then position + (times count - 1) else position
    (∀ name, (repeated name).observed = (copied name).observed) ∧
      ((∃ w, ∀ name, (repeated name).result = .ok w ∧ (copied name).result = .ok w) ∨
        ∃ reason reason', HaltsAlike key count move reason reason' ∧
          ∀ name, (repeated name).result = .error (reason name) ∧
            (copied name).result = .error (reason' name)) := by
  intro repeated copied move
  suffices alike : AreAlike key count move repeated copied from ⟨alike.observed, alike.ends⟩
  by_cases usable : r.isUsable = true
  · have keeps : ∀ position ≤ front.length, move position = position := fun _ bound =>
      if_neg (Nat.not_lt.2 bound)
    have moves : ∀ k, move (front.length + 1 + k) = front.length + times count + k := by
      intro k
      have positive := one_le_times count
      simp only [move]
      rw [if_pos (by omega)]
      omega
    have rows := areAlike_between (@areAlike_copies key count move r) (fun _ => rfl)
      (fun _ => List.length_replicate) front back keeps moves v
    simp only [List.map_replicate, List.map_cons, List.map_nil, List.singleton_append] at rows
    simp only [repeated, copied, ofProgram_eq_course usable]
    exact rows.remark _ _
  · simp only [repeated, copied, ofProgram_of_unusable usable]
    exact areAlike_of_fixed rfl

example :
    (ofProgram boxing [.step ⟨"b", "box", 2⟩] .null).result =
        .error (.failed (.operationFailed "b" 2 2 "boxed twice")) ∧
      (ofProgram boxing [.step ⟨"b", "box", 1⟩, .step ⟨"b", "box", 1⟩] .null).result =
        .error (.failed (.operationFailed "b" 1 1 "boxed twice")) := ⟨rfl, rfl⟩

end Execution

end RecipeEngine
