import RecipeEngine.Proofs.Recipe.Plan

/-!
# Iterations

A loop is gone through in iterations, which are counted from one up to the number that the loop
asks for.  A plan announces the iterations of its loops block after block
(`announcements_plan`), and it asks for the applications of its blocks in the same order
(`applicationSequence_eq_flatMap`).
-/

namespace RecipeEngine

/-- The iterations of a block, in order: a loop has as many as it asks for, but at least one. -/
def Block.iterations : Block → List Iteration
  | .single _ => []
  | .loop identifier count _ =>
      (List.range (times count)).map fun done => ⟨identifier, done + 1, times count⟩

/-- The applications that one time through a loop around `body` asks for. -/
def Iteration.applications (body : List Step) (i : Iteration) : List Application :=
  (i.tasks body).filterMap Task.application?

def Block.applications (b : Block) : List Application := b.tasks.filterMap Task.application?

def Task.iteration? : Task → Option Iteration
  | .announce i => some i
  | .apply _ => none

/-! ## Applications -/

theorem applicationSequence_eq_flatMap (bs : List Block) :
    applicationSequence bs = bs.flatMap Block.applications :=
  List.filterMap_flatMap

theorem tasks_loop (identifier : String) (count : UInt32) (body : List Step) :
    (Block.loop identifier count body).tasks =
      (Block.loop identifier count body).iterations.flatMap (Iteration.tasks body) := by
  rw [Block.iterations, List.flatMap_map]
  rfl

theorem applications_loop (identifier : String) (count : UInt32) (body : List Step) :
    (Block.loop identifier count body).applications =
      (Block.loop identifier count body).iterations.flatMap (Iteration.applications body) := by
  rw [Block.applications, tasks_loop]
  exact List.filterMap_flatMap

theorem applications_tasks (body : List Step) (is : List Iteration) :
    (is.flatMap (Iteration.tasks body)).filterMap Task.application? =
      is.flatMap (Iteration.applications body) := List.filterMap_flatMap

/-- The plan of a row of blocks in front of an iteration of one of its loops, and from it on. -/
theorem plan_split {before after : List Block} {identifier : String} {count : UInt32}
    {body : List Step} {past later : List Iteration} {i : Iteration}
    (split : (Block.loop identifier count body).iterations = past ++ i :: later) :
    plan (before ++ .loop identifier count body :: after) =
      (plan before ++ past.flatMap (Iteration.tasks body)) ++
        (i.tasks body ++ (later.flatMap (Iteration.tasks body) ++ plan after)) := by
  rw [plan_append, plan_cons, tasks_loop, split]
  simp only [List.flatMap_append, List.flatMap_cons, List.append_assoc]

/-! ## Announcements -/

theorem announcements_step (loop : Option Iteration) (s : Step) :
    (s.tasks loop).filterMap Task.iteration? = [] := by
  simp [Step.tasks, Task.iteration?]

theorem announcements_steps (loop : Option Iteration) (body : List Step) :
    (body.flatMap (Step.tasks loop)).filterMap Task.iteration? = [] := by
  simp [List.filterMap_flatMap, announcements_step]

theorem announcements_iterations (body : List Step) (is : List Iteration) :
    (is.flatMap (Iteration.tasks body)).filterMap Task.iteration? = is := by
  induction is with
  | nil => rfl
  | cons i is ih =>
    rw [List.flatMap_cons, List.filterMap_append, ih, Iteration.tasks, List.filterMap_cons,
      announcements_steps]
    rfl

theorem announcements_block (b : Block) : b.tasks.filterMap Task.iteration? = b.iterations := by
  cases b with
  | single s => exact announcements_step none s
  | loop identifier count body => rw [tasks_loop, announcements_iterations]

/-- A plan announces the iterations of its loops, block after block. -/
theorem announcements_plan (bs : List Block) :
    (plan bs).filterMap Task.iteration? = bs.flatMap Block.iterations := by
  simp only [plan, List.filterMap_flatMap, announcements_block]

/-! ## Counts -/

/-- The numbers of an iteration are counts of 32 bits. -/
def Iteration.IsCounted (i : Iteration) : Prop := i.number ≤ i.total ∧ i.total < UInt32.size

theorem Block.isCounted_of_mem {b : Block} {i : Iteration} (member : i ∈ b.iterations) :
    i.IsCounted := by
  cases b with
  | single s => cases member
  | loop identifier count body =>
    obtain ⟨done, within, rfl⟩ := List.mem_map.1 member
    refine ⟨List.mem_range.1 within, ?_⟩
    have bound := count.toNat_lt_size
    simp only [times, UInt32.size] at bound ⊢
    omega

theorem isCounted_of_announce {bs : List Block} {i : Iteration}
    (member : Task.announce i ∈ plan bs) : i.IsCounted := by
  have announced : i ∈ (plan bs).filterMap Task.iteration? := List.mem_filterMap.2 ⟨_, member, rfl⟩
  rw [announcements_plan] at announced
  obtain ⟨b, -, inBlock⟩ := List.mem_flatMap.1 announced
  exact Block.isCounted_of_mem inBlock

end RecipeEngine
