import RecipeEngine.Recipe.Loop
import RecipeEngine.Run.Execution
import RecipeEngine.Run.State

/-!
# Executing a recipe

Every instruction that does not fail moves the position forward, so a program is through after at
most as many rounds as it has instructions.
-/

namespace RecipeEngine

namespace Execution

/-! ## Steps -/

/-- Applies a function to a value; `refused` is the failure of the run if it refuses. -/
def apply (key : String) (f : Function) (refused : FunctionFailure → ExecutionError)
    (input : Json) : Execution Json := do
  act (.apply key input)
  match f input with
  | .value v => pure v
  | .failure failure => fail (refused failure)
  | .breakdown words => halt (.brokeDown words)

def repetitionRemark (s : Step) (iteration : Nat) : String :=
  "Op " ++ s.name ++ ", Iteration " ++ toString iteration ++ "/" ++ toString s.repetitions

/-- Repeats a step `left` more times, `done` repetitions being over. -/
def repeatStep (f : Function) (s : Step) (done : Nat) : Nat → Json → Execution Json
  | 0, v => pure v
  | left + 1, v => do
      remark (repetitionRemark s (done + 1))
      let refused := fun failure =>
        ExecutionError.operationFailed s.name (done + 1) s.repetitions failure.error
      let v ← apply s.functionKey f refused v
      repeatStep f s (done + 1) left v

def ofStep (r : Registry) (s : Step) (v : Json) : Execution Json :=
  match r.lookup s.functionKey with
  | none => fail (.unknownFunction s.name s.functionKey)
  | some f => repeatStep f s 0 s.repetitions v

def ofSteps (r : Registry) : List Step → Json → Execution Json
  | [], v => pure v
  | s :: rest, v => do
      let v ← ofStep r s v
      ofSteps r rest v

/-! ## Loops -/

def bodyStep (identifier : String) : Instruction → Except ExecutionError Step
  | .step s => .ok s
  | _ => .error (.invalidLoopBody identifier)

/-- The steps of the body of a loop.  A loop marker in the body is refused first, wherever it
stands. -/
def bodySteps (identifier : String) (body : List Instruction) :
    Except ExecutionError (List Step) :=
  if body.any Instruction.isLoopMarker then .error (.nestedLoop identifier)
  else body.mapM (bodyStep identifier)

/-- Repeats the body of a loop `left` more times, `done` iterations being over.  Each iteration
begins with an update of progress. -/
def repeatBody (r : Registry) (identifier : String) (body : List Step) (total done : Nat) :
    Nat → Json → Execution Json
  | 0, v => pure v
  | left + 1, v => do
      let iteration := done + 1
      send (.progress (some identifier) (UInt32.ofNat iteration) (UInt32.ofNat total))
      let v ← (ofSteps r body v).inContext (.loopIteration identifier iteration total)
      repeatBody r identifier body total iteration left v

def ofLoop (r : Registry) (p : Program) (identifier : String) (iterations : UInt32)
    (s : RunState) : Execution RunState :=
  match p.findLoopEnd s.position identifier with
  | none => fail (.unmatchedLoop identifier s.position)
  | some last => do
      -- The body is checked before its first iteration, so a defective loop does nothing.
      let body ← ofExcept
        (bodySteps identifier ((p.take last).drop (s.position + 1)))
      let total := times iterations
      let v ← repeatBody r identifier body total 0 total s.value
      pure ((s.withValue v).jump (last + 1))

/-! ## Programs -/

def ofInstruction (r : Registry) (p : Program) (s : RunState) : Instruction → Execution RunState
  | .step st => do
      let v ← ofStep r st s.value
      pure (s.withValue v).advance
  | .loopStart identifier iterations => ofLoop r p identifier iterations s
  | .loopEnd identifier => fail (.orphanLoopEnd identifier s.position)
  | .unsupported => fail (.unsupportedInstruction s.position)

/-- Executes instructions from the current position on, at most so many of them. -/
def runFrom (r : Registry) (p : Program) : Nat → RunState → Execution RunState
  | 0, s => pure s
  | rounds + 1, s =>
      match p[s.position]? with
      | none => pure s
      | some i => do
          let s ← ofInstruction r p s i
          runFrom r p rounds s

def startRemark (p : Program) : String := "Run started. Recipe items: " ++ toString p.length

def ofProgram (r : Registry) (p : Program) (v : Json) : Execution Json :=
  if r.isUsable then do
    remark (startRemark p)
    let s ← runFrom r p p.length (.start v)
    pure s.value
  else fail .registryNotReady

end Execution

end RecipeEngine
