import RecipeEngine.Proofs.Recipe.Plan
import RecipeEngine.Proofs.Run.Execution
import RecipeEngine.Run.Execute

/-!
# Going through a plan

A plan is gone through task by task.  The nested loops that execute steps, bodies and blocks do
the same thing as this one loop over their tasks (`ofBlock_eq_ofTasks`), failures and remarks
included.
-/

namespace RecipeEngine

/-- A failure as it appears outside the loop in which it arose. -/
def Iteration.wrap : Option Iteration → ExecutionError → ExecutionError
  | none => id
  | some i => .loopIteration i.identifier i.number i.total

namespace Execution

def ofApplication (r : Registry) (a : Application) (v : Json) : Execution Json :=
  match r.lookup a.key with
  | none => fail (Iteration.wrap a.loop (.unknownFunction a.step.name a.key))
  | some f => do
      remark (repetitionRemark a.step a.repetition)
      apply a.key f
        (fun failure => Iteration.wrap a.loop
          (.operationFailed a.step.name a.repetition a.step.repetitions failure.error)) v

def ofTask (r : Registry) (v : Json) : Task → Execution Json
  | .announce i => do
      send (.progress (some i.identifier) (UInt32.ofNat i.number) (UInt32.ofNat i.total))
      pure v
  | .apply a => ofApplication r a v

def ofTasks (r : Registry) (ts : List Task) (v : Json) : Execution Json := ts.foldlM (ofTask r) v

def ofBlock (r : Registry) : Block → Json → Execution Json
  | .single s, v => ofStep r s v
  | .loop identifier iterations body, v =>
      repeatBody r identifier body (times iterations) 0 (times iterations) v

@[simp] theorem ofTasks_nil (r : Registry) (v : Json) : ofTasks r [] v = pure v := rfl

@[simp] theorem ofTasks_cons (r : Registry) (t : Task) (ts : List Task) (v : Json) :
    ofTasks r (t :: ts) v = ofTask r v t >>= ofTasks r ts := rfl

theorem ofTasks_append (r : Registry) (ts ts' : List Task) (v : Json) :
    ofTasks r (ts ++ ts') v = ofTasks r ts v >>= ofTasks r ts' := by
  simp only [ofTasks, List.foldlM_append]
  rfl

theorem inContext_apply (context : ExecutionError → ExecutionError) (key : String) (f : Function)
    (refused : FunctionFailure → ExecutionError) (v : Json) :
    (apply key f refused v).inContext context =
      apply key f (fun failure => context (refused failure)) v := by
  unfold apply
  rw [inContext_bind, inContext_act]
  cases f v <;> rfl

theorem inContext_repeatStep {r : Registry} {f : Function} {s : Step} (loop : Option Iteration)
    (found : r.lookup s.functionKey = some f) (done left : Nat) (v : Json) :
    (repeatStep f s done left v).inContext (Iteration.wrap loop) =
      ofTasks r ((List.range' done left).map fun done => .apply ⟨s, done + 1, loop⟩) v := by
  induction left generalizing done v with
  | zero => rfl
  | succ left ih =>
    simp only [repeatStep, List.range'_succ, List.map_cons, ofTasks_cons, ofTask, ofApplication,
      Application.key, found, inContext_bind, inContext_remark, inContext_apply, bind_assoc, ih]

theorem inContext_ofStep (r : Registry) (s : Step) (loop : Option Iteration) (v : Json) :
    (ofStep r s v).inContext (Iteration.wrap loop) = ofTasks r (s.tasks loop) v := by
  cases found : r.lookup s.functionKey with
  | some f =>
    simp only [ofStep, found, Step.tasks, List.range_eq_range']
    exact inContext_repeatStep loop found 0 s.repetitions v
  | none =>
    -- The first repetition already fails, and there is a first one.
    obtain ⟨later, repetitions⟩ := Nat.exists_eq_add_of_le' (one_le_times s.repeatCount)
    rw [Step.tasks, Step.repetitions, repetitions, List.range_succ_eq_map]
    simp only [ofStep, found, List.map_cons, ofTasks_cons, ofTask, ofApplication, Application.key,
      inContext_fail, fail_bind]

theorem inContext_ofSteps (r : Registry) (body : List Step) (loop : Option Iteration) (v : Json) :
    (ofSteps r body v).inContext (Iteration.wrap loop) =
      ofTasks r (body.flatMap (Step.tasks loop)) v := by
  induction body generalizing v with
  | nil => rfl
  | cons s body ih =>
    simp only [ofSteps, List.flatMap_cons, ofTasks_append, inContext_bind, inContext_ofStep, ih]

theorem repeatBody_eq_ofTasks (r : Registry) (identifier : String) (body : List Step)
    (total done left : Nat) (v : Json) :
    repeatBody r identifier body total done left v =
      ofTasks r ((List.range' done left).flatMap fun done =>
        Iteration.tasks body ⟨identifier, done + 1, total⟩) v := by
  -- The context of an iteration is that of each of its tasks, so it can be put on them one by one.
  induction left generalizing done v with
  | zero => rfl
  | succ left ih =>
    have iteration := fun v => inContext_ofSteps r body (some ⟨identifier, done + 1, total⟩) v
    simp only [Iteration.wrap] at iteration
    simp only [repeatBody, List.range'_succ, List.flatMap_cons, ofTasks_append, Iteration.tasks,
      ofTasks_cons, ofTask, iteration, ih, bind_assoc, pure_bind]

/-- Executing a block is going through its tasks. -/
theorem ofBlock_eq_ofTasks (r : Registry) (b : Block) (v : Json) :
    ofBlock r b v = ofTasks r b.tasks v := by
  cases b with
  | single s => rw [← inContext_id (ofBlock r (.single s) v)]; exact inContext_ofStep r s none v
  | loop identifier iterations body =>
    rw [ofBlock, repeatBody_eq_ofTasks, Block.tasks, List.range_eq_range']

end Execution

end RecipeEngine
