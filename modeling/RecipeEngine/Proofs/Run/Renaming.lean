import Mathlib.Data.List.Forall2
import RecipeEngine.Proofs.Run.Outcome

/-!
# Names in a recipe

Identifiers of loops are compared with each other and with nothing else, and names of steps are only
reported.  So a recipe with other names, different identifiers staying different, is executed in the
same way: what comes out of it has the other names in it and differs in nothing else
(`Execution.ofProgram_rename`).

Two executions that differ by names only are related by `Execution.IsRenamed`, which every part of a
run keeps.
-/

namespace RecipeEngine

/-- Other names for loops and steps. -/
structure Renaming where
  identifier : String → String
  stepName : String → String
  /-- Different loops stay different. -/
  injective : Function.Injective identifier

def Step.rename (n : Renaming) (s : Step) : Step := { s with name := n.stepName s.name }

def Instruction.rename (n : Renaming) : Instruction → Instruction
  | .step s => .step (s.rename n)
  | .loopStart identifier iterations => .loopStart (n.identifier identifier) iterations
  | .loopEnd identifier => .loopEnd (n.identifier identifier)
  | .unsupported => .unsupported

def Program.rename (n : Renaming) (p : Program) : Program := p.map (Instruction.rename n)

/-- The same failure, told with other names. -/
def ExecutionError.rename (n : Renaming) : ExecutionError → ExecutionError
  | .registryNotReady => .registryNotReady
  | .unknownFunction step key => .unknownFunction (n.stepName step) key
  | .operationFailed step iteration total detail =>
      .operationFailed (n.stepName step) iteration total detail
  | .unmatchedLoop identifier position => .unmatchedLoop (n.identifier identifier) position
  | .nestedLoop identifier => .nestedLoop (n.identifier identifier)
  | .invalidLoopBody identifier => .invalidLoopBody (n.identifier identifier)
  | .orphanLoopEnd identifier position => .orphanLoopEnd (n.identifier identifier) position
  | .unsupportedInstruction position => .unsupportedInstruction position
  | .loopIteration identifier iteration total source =>
      .loopIteration (n.identifier identifier) iteration total (source.rename n)

def Halt.rename (n : Renaming) : Halt → Halt
  | .failed e => .failed (e.rename n)
  | .brokeDown words => .brokeDown words

/-- The same action, told with other names. -/
inductive Action.IsRenamed (n : Renaming) : Action → Action → Prop
  | apply (key : String) (input : Json) : IsRenamed n (.apply key input) (.apply key input)
  | opening (p : Program) :
      IsRenamed n (.send (.diagnostic (Execution.startRemark p)))
        (.send (.diagnostic (Execution.startRemark p)))
  | repetition (s : Step) (iteration : Nat) :
      IsRenamed n (.send (.diagnostic (Execution.repetitionRemark s iteration)))
        (.send (.diagnostic (Execution.repetitionRemark (s.rename n) iteration)))
  | progress (identifier : String) (current total : UInt32) :
      IsRenamed n (.send (.progress (some identifier) current total))
        (.send (.progress (some (n.identifier identifier)) current total))

/-- `y` does what `x` does and comes to the same, with other names. -/
structure Execution.IsRenamed (n : Renaming) {α : Type} (x y : Execution α) : Prop where
  trace : List.Forall₂ (Action.IsRenamed n) x.trace y.trace
  result : y.result = x.result.mapError (Halt.rename n)

variable (n : Renaming)

/-! ## Recipes with other names -/

/-- The loops are matched up in the same way. -/
theorem Program.findEndFrom_rename (identifier : String) (position balance : Nat) (p : Program) :
    findEndFrom (n.identifier identifier) position balance (Program.rename n p) =
      findEndFrom identifier position balance p := by
  induction p generalizing position balance with
  | nil => rfl
  | cons i p ih =>
    rw [rename] at ih ⊢
    -- Only here are identifiers compared, so only here must different ones stay different.
    cases i with
    | step s => simp only [List.map_cons, Instruction.rename, findEndFrom, ih]
    | loopStart id iterations =>
      simp only [List.map_cons, Instruction.rename, findEndFrom, n.injective.eq_iff, ih]
    | loopEnd id =>
      simp only [List.map_cons, Instruction.rename, findEndFrom, n.injective.eq_iff, ih]
    | unsupported => simp only [List.map_cons, Instruction.rename, findEndFrom, ih]

theorem Program.findLoopEnd_rename (p : Program) (start : Nat) (identifier : String) :
    (Program.rename n p).findLoopEnd start (n.identifier identifier) =
      p.findLoopEnd start identifier := by
  rw [findLoopEnd, rename, ← List.map_drop]
  exact findEndFrom_rename n identifier start 0 (p.drop start)

theorem Instruction.isLoopMarker_rename (i : Instruction) :
    (i.rename n).isLoopMarker = i.isLoopMarker := by
  cases i <;> rfl

namespace Execution

theorem mapM_bodyStep_rename (identifier : String) (body : Program) :
    (Program.rename n body).mapM (bodyStep (n.identifier identifier)) =
      ((body.mapM (bodyStep identifier)).map (List.map (Step.rename n))).mapError
        (ExecutionError.rename n) := by
  induction body with
  | nil => rfl
  | cons i body ih =>
    rw [Program.rename] at ih ⊢
    rw [List.map_cons, List.mapM_cons, List.mapM_cons, ih]
    cases i with
    | step s => cases body.mapM (bodyStep identifier) <;> rfl
    | loopStart id iterations => rfl
    | loopEnd id => rfl
    | unsupported => rfl

/-- The body of a loop passes or fails its check in the same way. -/
theorem bodySteps_rename (identifier : String) (body : Program) :
    bodySteps (n.identifier identifier) (Program.rename n body) =
      ((bodySteps identifier body).map (List.map (Step.rename n))).mapError
        (ExecutionError.rename n) := by
  have markers : (Program.rename n body).any Instruction.isLoopMarker =
      body.any Instruction.isLoopMarker := by
    rw [Program.rename, List.any_map]
    exact congrArg body.any (funext (Instruction.isLoopMarker_rename n))
  rw [bodySteps, bodySteps, markers]
  split
  next => rfl
  next => exact mapM_bodyStep_rename n identifier body

/-! ## Executions with other names -/

variable {n} {α β : Type}

namespace IsRenamed

theorem pure (a : α) : IsRenamed n (Pure.pure a) (Pure.pure a) := ⟨.nil, rfl⟩

theorem halt {reason reason' : Halt} (same : reason' = reason.rename n) :
    IsRenamed n (Execution.halt reason : Execution α) (Execution.halt reason') :=
  ⟨.nil, congrArg Except.error same⟩

theorem act {action action' : Action} (same : action.IsRenamed n action') :
    IsRenamed n (Execution.act action) (Execution.act action') :=
  ⟨.cons same .nil, rfl⟩

theorem bind {x y : Execution α} {f g : α → Execution β} (first : IsRenamed n x y)
    (second : ∀ a, IsRenamed n (f a) (g a)) : IsRenamed n (x >>= f) (y >>= g) := by
  obtain ⟨trace, result⟩ := first
  -- Both first parts end with the same value, or both halt.
  cases ends : x.result with
  | ok a =>
    rw [ends] at result
    have whole := bind_of_ok (f := f) ends
    have whole' := bind_of_ok (f := g) result
    refine ⟨?_, ?_⟩
    · rw [whole.1, whole'.1]
      exact List.rel_append trace (second a).trace
    · rw [whole.2, whole'.2, (second a).result]
  | error reason =>
    rw [ends] at result
    have whole := bind_of_error (f := f) ends
    have whole' := bind_of_error (f := g) result
    refine ⟨?_, ?_⟩
    · rw [whole.1, whole'.1]
      exact trace
    · rw [whole.2, whole'.2]
      rfl

/-- The same context, told with other names, around the same execution. -/
theorem inContext {x y : Execution α} {context context' : ExecutionError → ExecutionError}
    (same : ∀ e, context' (e.rename n) = (context e).rename n) (inner : IsRenamed n x y) :
    IsRenamed n (x.inContext context) (y.inContext context') := by
  obtain ⟨trace, result⟩ := inner
  refine ⟨by rwa [trace_inContext, trace_inContext], ?_⟩
  obtain ⟨t, ended⟩ := x
  obtain ⟨t', ended'⟩ := y
  subst result
  cases ended with
  | ok a => rfl
  | error reason =>
    cases reason with
    | failed e => exact congrArg (fun e => Except.error (Halt.failed e)) (same e)
    | brokeDown words => rfl

end IsRenamed

/-! ## Runs with other names -/

theorem isRenamed_apply (key : String) (f : Function)
    {refused refused' : FunctionFailure → ExecutionError}
    (same : ∀ failure, refused' failure = (refused failure).rename n) (v : Json) :
    IsRenamed n (apply key f refused v) (apply key f refused' v) := by
  refine .bind (.act (.apply key v)) fun _ => ?_
  cases f v with
  | value w => exact .pure w
  | failure failure => exact .halt (congrArg Halt.failed (same failure))
  | breakdown words => exact .halt rfl

theorem isRenamed_repeatStep (f : Function) (s : Step) (done left : Nat) (v : Json) :
    IsRenamed n (repeatStep f s done left v) (repeatStep f (s.rename n) done left v) := by
  induction left generalizing done v with
  | zero => exact .pure v
  | succ left ih =>
    refine .bind (.act (.repetition s (done + 1))) fun _ => ?_
    exact .bind (isRenamed_apply s.functionKey f (fun _ => rfl) v) fun w => ih (done + 1) w

theorem isRenamed_ofStep (r : Registry) (s : Step) (v : Json) :
    IsRenamed n (ofStep r s v) (ofStep r (s.rename n) v) := by
  have key : (s.rename n).functionKey = s.functionKey := rfl
  simp only [ofStep, key]
  cases r.lookup s.functionKey with
  | none => exact .halt rfl
  | some f => exact isRenamed_repeatStep f s 0 s.repetitions v

theorem isRenamed_ofSteps (r : Registry) (steps : List Step) (v : Json) :
    IsRenamed n (ofSteps r steps v) (ofSteps r (steps.map (Step.rename n)) v) := by
  induction steps generalizing v with
  | nil => exact .pure v
  | cons s steps ih => exact .bind (isRenamed_ofStep r s v) ih

theorem isRenamed_repeatBody (r : Registry) (identifier : String) (body : List Step)
    (total done left : Nat) (v : Json) :
    IsRenamed n (repeatBody r identifier body total done left v)
      (repeatBody r (n.identifier identifier) (body.map (Step.rename n)) total done left v) := by
  induction left generalizing done v with
  | zero => exact .pure v
  | succ left ih =>
    refine .bind (.act (.progress identifier _ _)) fun _ => ?_
    exact .bind (.inContext (fun _ => rfl) (isRenamed_ofSteps r body v)) fun w => ih (done + 1) w

theorem isRenamed_ofLoop (r : Registry) (p : Program) (identifier : String) (iterations : UInt32)
    (s : RunState) :
    IsRenamed n (ofLoop r p identifier iterations s)
      (ofLoop r (Program.rename n p) (n.identifier identifier) iterations s) := by
  simp only [ofLoop, Program.findLoopEnd_rename]
  cases p.findLoopEnd s.position identifier with
  | none => exact .halt rfl
  | some last =>
    -- The body is cut out by positions, which names have no part in.
    have body : ((Program.rename n p).take last).drop (s.position + 1) =
        Program.rename n ((p.take last).drop (s.position + 1)) := by
      rw [Program.rename, Program.rename, ← List.map_take, ← List.map_drop]
    simp only [body, bodySteps_rename]
    cases bodySteps identifier ((p.take last).drop (s.position + 1)) with
    | error e => exact .halt rfl
    | ok steps =>
      simp only [Except.map, Except.mapError, ofExcept, pure_bind]
      exact .bind (isRenamed_repeatBody r identifier steps _ 0 _ s.value) fun w => .pure _

theorem isRenamed_ofInstruction (r : Registry) (p : Program) (s : RunState) (i : Instruction) :
    IsRenamed n (ofInstruction r p s i) (ofInstruction r (Program.rename n p) s (i.rename n)) := by
  cases i with
  | step st => exact .bind (isRenamed_ofStep r st s.value) fun w => .pure _
  | loopStart identifier iterations => exact isRenamed_ofLoop r p identifier iterations s
  | loopEnd identifier => exact .halt rfl
  | unsupported => exact .halt rfl

theorem isRenamed_runFrom (r : Registry) (p : Program) (rounds : Nat) (s : RunState) :
    IsRenamed n (runFrom r p rounds s) (runFrom r (Program.rename n p) rounds s) := by
  induction rounds generalizing s with
  | zero => exact .pure s
  | succ rounds ih =>
    have here : (Program.rename n p)[s.position]? = p[s.position]?.map (Instruction.rename n) :=
      List.getElem?_map
    simp only [runFrom, here]
    cases p[s.position]? with
    | none => exact .pure s
    | some i => exact .bind (isRenamed_ofInstruction r p s i) ih

theorem isRenamed_ofProgram (r : Registry) (p : Program) (v : Json) :
    IsRenamed n (ofProgram r p v) (ofProgram r (Program.rename n p) v) := by
  have length : (Program.rename n p).length = p.length := List.length_map _
  unfold ofProgram
  split
  next =>
    have opening : startRemark (Program.rename n p) = startRemark p := by
      unfold startRemark
      rw [length]
    rw [opening, length]
    exact .bind (.act (.opening p)) fun _ =>
      .bind (isRenamed_runFrom r p p.length (.start v)) fun s => .pure s.value
  next => exact .halt rfl

theorem IsRenamed.applications_eq {x y : Execution α} (same : IsRenamed n x y) :
    y.applications = x.applications := by
  obtain ⟨trace, -⟩ := same
  unfold applications
  generalize x.trace = actions, y.trace = actions' at trace ⊢
  induction trace with
  | nil => rfl
  | cons here _ ih =>
    cases here with
    | apply key input => simp only [List.filterMap_cons, ih]
    | opening => simpa only [List.filterMap_cons] using ih
    | repetition => simpa only [List.filterMap_cons] using ih
    | progress => simpa only [List.filterMap_cons] using ih

/-- A recipe with other names is executed in the same way: the same functions are applied to the
same values, the events differ by their names only, and the run ends with the same value or halts in
the same way, with other names in its failure. -/
theorem ofProgram_rename (n : Renaming) (r : Registry) (p : Program) (v : Json) :
    (ofProgram r (Program.rename n p) v).result =
        (ofProgram r p v).result.mapError (Halt.rename n) ∧
      (ofProgram r (Program.rename n p) v).applications = (ofProgram r p v).applications ∧
      List.Forall₂ (Action.IsRenamed n) (ofProgram r p v).trace
        (ofProgram r (Program.rename n p) v).trace := by
  have same : IsRenamed n (ofProgram r p v) (ofProgram r (Program.rename n p) v) :=
    isRenamed_ofProgram r p v
  exact ⟨same.result, same.applications_eq, same.trace⟩

/-- A mark on every identifier, and no names for steps. -/
def marking : Renaming where
  identifier id := id.push '+'
  stepName _ := ""
  injective id id' same := by
    have marked := congrArg String.toList same
    rw [String.toList_push, String.toList_push] at marked
    exact String.toList_inj.1 (List.append_cancel_right marked)

theorem ofProgram_rename_boxing :
    (ofProgram boxing [.loopStart "a+" 3, .step ⟨"", "box", 0⟩, .loopEnd "a+", .loopEnd "a+"]
        .null).result =
      .error (.failed (.loopIteration "a+" 2 3 (.operationFailed "" 1 1 "boxed twice"))) := by
  have original : (ofProgram boxing boxingTwice .null).result =
      .error (.failed (.loopIteration "a" 2 3 (.operationFailed "b" 1 1 "boxed twice"))) := rfl
  have renamed := (ofProgram_rename marking boxing boxingTwice .null).1
  rw [original] at renamed
  exact renamed

end Execution

end RecipeEngine
