import RecipeEngine.Proofs.Recipe.Block

/-!
# What a recipe asks for

A row of blocks written out in full: every step as often as it is to be repeated, every body of a
loop as often as the loop is to be gone through, each time with an announcement in front.  What is
left is one list of tasks without loops.
-/

namespace RecipeEngine

/-- One time through a loop. -/
structure Iteration where
  identifier : String
  /-- The number of the iteration, the first one being 1. -/
  number : Nat
  total : Nat
  deriving DecidableEq

/-- One application of the function of a step. -/
structure Application where
  step : Step
  /-- The number of the repetition of the step, the first one being 1. -/
  repetition : Nat
  loop : Option Iteration
  deriving DecidableEq

/-- A part of a run that is not divided further. -/
inductive Task where
  | announce (i : Iteration)
  | apply (a : Application)
  deriving DecidableEq

def Task.application? : Task → Option Application
  | .announce _ => none
  | .apply a => some a

def Application.key (a : Application) : String := a.step.functionKey

def Step.tasks (loop : Option Iteration) (s : Step) : List Task :=
  (List.range s.repetitions).map fun done => .apply ⟨s, done + 1, loop⟩

/-- The tasks of one time through a loop around `body`. -/
def Iteration.tasks (body : List Step) (i : Iteration) : List Task :=
  .announce i :: body.flatMap (Step.tasks (some i))

def Block.tasks : Block → List Task
  | .single s => s.tasks none
  | .loop identifier iterations body =>
      (List.range (times iterations)).flatMap fun done =>
        Iteration.tasks body ⟨identifier, done + 1, times iterations⟩

def plan (bs : List Block) : List Task := bs.flatMap Block.tasks

/-- The application sequence of a row of blocks: each step is repeated as often as it says, but at
least once, and so is each body of a loop. -/
def applicationSequence (bs : List Block) : List Application := (plan bs).filterMap Task.application?

@[simp] theorem plan_nil : plan [] = [] := rfl

@[simp] theorem plan_cons (b : Block) (bs : List Block) : plan (b :: bs) = b.tasks ++ plan bs := rfl

theorem plan_append (bs bs' : List Block) : plan (bs ++ bs') = plan bs ++ plan bs' :=
  List.flatMap_append

theorem plan_singles (steps : List Step) :
    plan (steps.map .single) = steps.flatMap (Step.tasks none) := List.flatMap_map ..

theorem applicationSequence_append (bs bs' : List Block) :
    applicationSequence (bs ++ bs') = applicationSequence bs ++ applicationSequence bs' := by
  rw [applicationSequence, plan_append, List.filterMap_append]
  rfl

theorem exists_tasks_of_applications {ts : List Task} {before after : List Application}
    {a : Application} (split : ts.filterMap Task.application? = before ++ a :: after) :
    ∃ front back, ts = front ++ .apply a :: back ∧
      front.filterMap Task.application? = before := by
  induction ts generalizing before with
  | nil => simp at split
  | cons t ts ih =>
    cases t with
    | announce i =>
      obtain ⟨front, back, rfl, same⟩ := ih split
      exact ⟨.announce i :: front, back, rfl, same⟩
    | apply a' =>
      cases before with
      | nil =>
        simp only [List.filterMap_cons, Task.application?, List.nil_append,
          List.cons.injEq] at split
        obtain ⟨rfl, -⟩ := split
        exact ⟨[], ts, rfl, rfl⟩
      | cons a'' before =>
        simp only [List.filterMap_cons, Task.application?, List.cons_append,
          List.cons.injEq] at split
        obtain ⟨rfl, later⟩ := split
        obtain ⟨front, back, rfl, same⟩ := ih later
        exact ⟨.apply a' :: front, back, rfl, by simp [Task.application?, same]⟩

end RecipeEngine
