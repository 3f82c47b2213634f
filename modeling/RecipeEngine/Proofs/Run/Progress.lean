import RecipeEngine.Proofs.Recipe.Iteration
import RecipeEngine.Proofs.Run.Outcome

/-!
# The progress of a run

A run reports the beginning of each iteration that its value comes to: of all iterations of the
longest well-formed prefix if nothing is refused, and else of those up to the iteration in which,
or in front of which, the value gets lost (`ComesTo`).  Between two reports stand exactly the
applications of the iteration that the first of them announces.
-/

namespace RecipeEngine

/-- The iteration that an event reports the beginning of. -/
def Event.iteration? : Event → Option Iteration
  | .progress (some identifier) current total => some ⟨identifier, current.toNat, total.toNat⟩
  | _ => none

namespace Action

def iteration? : Action → Option Iteration
  | .apply _ _ => none
  | .send e => e.iteration?

def application? : Action → Option (String × Json)
  | .apply key input => some (key, input)
  | .send _ => none

end Action

/-- The iterations whose beginnings an execution reports, in order. -/
def Execution.iterations {α : Type} (x : Execution α) : List Iteration :=
  x.trace.filterMap Action.iteration?

/-- The event that reports the beginning of an iteration. -/
def Iteration.event (i : Iteration) : Event :=
  .progress (some i.identifier) (UInt32.ofNat i.number) (UInt32.ofNat i.total)

/-- No count of an iteration is too large for its event. -/
theorem Iteration.IsCounted.iteration?_event {i : Iteration} (counted : i.IsCounted) :
    i.event.iteration? = some i := by
  obtain ⟨number, total⟩ := counted
  simp only [event, Event.iteration?, UInt32.toNat_ofNat_of_lt' total,
    UInt32.toNat_ofNat_of_lt' (Nat.lt_of_le_of_lt number total)]

/-! ## Where a value gets lost -/

/-- How far a value comes that is fed through a row of blocks: the iterations that it comes to. -/
inductive ComesTo (r : Registry) (bs : List Block) (v : Json) : List Iteration → Prop where
  /-- The value comes through, and so to every iteration of every loop. -/
  | through {w : Json} :
      feed r (applicationSequence bs) v = some w → ComesTo r bs v (bs.flatMap Block.iterations)
  /-- The value gets lost in a step between the loops. -/
  | lostBetween {before after : List Block} {s : Step} {u : Json} :
      bs = before ++ .single s :: after →
      feed r (applicationSequence before) v = some u →
      feed r (Block.single s).applications u = none →
      ComesTo r bs v (before.flatMap Block.iterations)
  /-- The value gets lost in the iteration `i` of a loop. -/
  | lostWithin {before after : List Block} {identifier : String} {count : UInt32}
      {body : List Step} {past later : List Iteration} {i : Iteration} {u w : Json} :
      bs = before ++ .loop identifier count body :: after →
      (Block.loop identifier count body).iterations = past ++ i :: later →
      feed r (applicationSequence before) v = some u →
      feed r (past.flatMap (Iteration.applications body)) u = some w →
      feed r (i.applications body) w = none →
      ComesTo r bs v (before.flatMap Block.iterations ++ past ++ [i])

/-- A value that gets lost on its way through a row of parts gets lost in one of them. -/
theorem exists_split_of_lost {α : Type} {r : Registry} (applications : α → List Application)
    {parts : List α} {v : Json} (lost : feed r (parts.flatMap applications) v = none) :
    ∃ before part after u, parts = before ++ part :: after ∧
      feed r (before.flatMap applications) v = some u ∧ feed r (applications part) u = none := by
  induction parts generalizing v with
  | nil => cases lost
  | cons part parts ih =>
    rw [List.flatMap_cons, feed_append] at lost
    cases fed : feed r (applications part) v with
    | none => exact ⟨[], part, parts, v, rfl, rfl, fed⟩
    | some u =>
      rw [fed, Option.bind_some] at lost
      obtain ⟨before, later, after, w, rfl, reached, gone⟩ := ih lost
      refine ⟨part :: before, later, after, w, rfl, ?_, gone⟩
      rw [List.flatMap_cons, feed_append, fed]
      exact reached

theorem exists_comesTo (r : Registry) (bs : List Block) (v : Json) :
    ∃ reached, ComesTo r bs v reached := by
  cases fed : feed r (applicationSequence bs) v with
  | some w => exact ⟨_, .through fed⟩
  | none =>
    rw [applicationSequence_eq_flatMap] at fed
    obtain ⟨before, b, after, u, rfl, arrives, lost⟩ := exists_split_of_lost _ fed
    rw [← applicationSequence_eq_flatMap] at arrives
    cases b with
    | single s => exact ⟨_, .lostBetween rfl arrives lost⟩
    | loop identifier count body =>
      rw [applications_loop] at lost
      obtain ⟨past, i, later, w, split, gone, lost⟩ := exists_split_of_lost _ lost
      exact ⟨_, .lostWithin rfl split arrives gone lost⟩

namespace Execution

open Program

variable {r : Registry} {v : Json}

/-! ## The iterations of a plan -/

/-- All counts in a plan or a part of it fit into events. -/
def AreCounted (ts : List Task) : Prop := ∀ i, Task.announce i ∈ ts → i.IsCounted

theorem AreCounted.tail {t : Task} {ts : List Task} (counted : AreCounted (t :: ts)) :
    AreCounted ts := fun i member => counted i (List.mem_cons_of_mem t member)

theorem AreCounted.left {ts ts' : List Task} (counted : AreCounted (ts ++ ts')) : AreCounted ts :=
  fun i member => counted i (List.mem_append_left ts' member)

theorem AreCounted.right {ts ts' : List Task} (counted : AreCounted (ts ++ ts')) :
    AreCounted ts' := fun i member => counted i (List.mem_append_right ts member)

theorem iterations_bind_of_ok {α β : Type} {x : Execution α} {f : α → Execution β} {a : α}
    (ends : x.result = .ok a) : (x >>= f).iterations = x.iterations ++ (f a).iterations := by
  rw [iterations, (bind_of_ok ends).1, List.filterMap_append]
  rfl

theorem iterations_bind_of_error {α β : Type} {x : Execution α} {f : α → Execution β}
    {reason : Halt} (halts : x.result = .error reason) : (x >>= f).iterations = x.iterations := by
  rw [iterations, (bind_of_error halts).1]
  rfl

theorem iterations_ofApplication (r : Registry) (a : Application) (v : Json) :
    (ofApplication r a v).iterations = [] := by
  cases found : r.lookup a.key with
  | none => rw [ofApplication_of_missing v found]; rfl
  | some f => rw [ofApplication_of_found v found]; rfl

theorem iterations_announce {i : Iteration} (counted : i.IsCounted) (ts : List Task) :
    (ofTasks r (.announce i :: ts) v).iterations = i :: (ofTasks r ts v).iterations :=
  List.filterMap_cons_some counted.iteration?_event

theorem prefix_iterations_ofTasks {ts : List Task} (counted : AreCounted ts) :
    (ofTasks r ts v).iterations <+: ts.filterMap Task.iteration? := by
  induction ts generalizing v with
  | nil => exact List.prefix_rfl
  | cons t ts ih =>
    cases t with
    | announce i =>
      rw [iterations_announce (counted i (List.mem_cons_self ..))]
      exact (List.prefix_cons_inj i).2 (ih counted.tail)
    | apply a =>
      cases goes : (ofApplication r a v).result with
      | ok u =>
        rw [ofTasks_cons, ofTask, iterations_bind_of_ok goes, iterations_ofApplication]
        exact ih counted.tail
      | error reason =>
        rw [ofTasks_cons, ofTask, iterations_bind_of_error goes, iterations_ofApplication]
        exact List.nil_prefix

theorem iterations_ofTasks_of_fed {ts : List Task} (counted : AreCounted ts) {w : Json}
    (fed : feed r (ts.filterMap Task.application?) v = some w) :
    (ofTasks r ts v).iterations = ts.filterMap Task.iteration? := by
  induction ts generalizing v with
  | nil => rfl
  | cons t ts ih =>
    cases t with
    | announce i =>
      rw [iterations_announce (counted i (List.mem_cons_self ..)), ih counted.tail fed]
      rfl
    | apply a =>
      rw [List.filterMap_cons, Task.application?, feed_cons] at fed
      obtain ⟨u, gives, fed⟩ := Option.bind_eq_some_iff.1 fed
      have goes := (result_ofApplication_eq_ok_iff r a v u).2 gives
      rw [ofTasks_cons, ofTask, iterations_bind_of_ok goes, iterations_ofApplication,
        ih counted.tail fed]
      rfl

/-- A value that gets lost in a part of a plan comes to nothing behind that part. -/
theorem iterations_ofTasks_of_lost {front part : List Task} (back : List Task)
    (counted : AreCounted front) {u : Json}
    (fed : feed r (front.filterMap Task.application?) v = some u)
    (lost : feed r (part.filterMap Task.application?) u = none) :
    (ofTasks r (front ++ (part ++ back)) v).iterations =
      front.filterMap Task.iteration? ++ (ofTasks r part u).iterations := by
  have ends := (result_ofTasks_eq_ok_iff r front v u).2 fed
  rw [ofTasks_append, iterations_bind_of_ok ends, iterations_ofTasks_of_fed counted fed,
    ofTasks_append]
  cases goes : (ofTasks r part u).result with
  | error reason => rw [iterations_bind_of_error goes]
  | ok w =>
    rw [(result_ofTasks_eq_ok_iff r part u w).1 goes] at lost
    cases lost

theorem areCounted_plan (bs : List Block) : AreCounted (plan bs) :=
  fun _ member => isCounted_of_announce member

/-- An iteration is announced before its first application, so its announcement is never lost. -/
theorem iterations_of_iteration {body : List Step} {i : Iteration}
    (counted : AreCounted (i.tasks body)) : (ofTasks r (i.tasks body) v).iterations = [i] := by
  have silent : (ofTasks r (body.flatMap (Step.tasks (some i))) v).iterations <+: [] := by
    rw [← announcements_steps (some i) body]
    exact prefix_iterations_ofTasks counted.tail
  rw [Iteration.tasks, iterations_announce (counted i (List.mem_cons_self ..)),
    List.prefix_nil.1 silent]

theorem iterations_of_comesTo {bs : List Block} {reached : List Iteration}
    (comes : ComesTo r bs v reached) : (ofTasks r (plan bs) v).iterations = reached := by
  have counted := areCounted_plan bs
  -- Each case cuts the plan where the value gets lost, as far as the cut is known.
  cases comes with
  | through fed => rw [iterations_ofTasks_of_fed counted fed, announcements_plan]
  | @lostBetween before after s u split fed lost =>
    subst split
    rw [plan_append, plan_cons] at counted ⊢
    have silent := prefix_iterations_ofTasks (r := r) (v := u) counted.right.left
    rw [announcements_block, Block.iterations, List.prefix_nil] at silent
    rw [iterations_ofTasks_of_lost (plan after) counted.left fed lost, announcements_plan, silent,
      List.append_nil]
  | @lostWithin before after identifier count body past later i u w split iterations fed gone
      lost =>
    subst split
    rw [plan_split iterations] at counted ⊢
    have arrives : feed r ((plan before ++ past.flatMap (Iteration.tasks body)).filterMap
        Task.application?) v = some w := by
      rw [List.filterMap_append, applications_tasks, feed_append]
      exact Option.bind_eq_some_iff.2 ⟨u, fed, gone⟩
    rw [iterations_ofTasks_of_lost _ counted.left arrives lost,
      iterations_of_iteration counted.right.left, List.filterMap_append, announcements_plan,
      announcements_iterations]

/-- The trace of a plan at the report of an iteration that the value comes to. -/
theorem trace_ofTasks_announce {front : List Task} {u : Json}
    (fed : feed r (front.filterMap Task.application?) v = some u) (i : Iteration)
    (back : List Task) :
    (ofTasks r (front ++ .announce i :: back) v).trace =
      (ofTasks r front v).trace ++ .send i.event :: (ofTasks r back u).trace := by
  rw [ofTasks_append, (bind_of_ok ((result_ofTasks_eq_ok_iff r front v u).2 fed)).1]
  rfl

theorem applications_eq {α : Type} (x : Execution α) :
    x.applications = x.trace.filterMap Action.application? := by
  rw [applications]
  congr 1
  funext action
  cases action <;> rfl

/-- A run reports the beginning of exactly those iterations of the loops in its longest well-formed
prefix that the value comes to, in order.  In front of the report of an iteration stand exactly the
applications of what comes before it, and behind the report those of the iteration itself and of
what comes after it. -/
theorem reports_iterations {r : Registry} (ready : r.isReady = true) (filled : r.isEmpty = false)
    {p : Program} {k : Nat} (longest : p.IsLongestPrefix k) {bs : List Block}
    (prefixed : p.take k = ofBlocks bs) (v : Json) :
    (∀ reached, (ofProgram r p v).iterations = reached ↔ ComesTo r bs v reached) ∧
    ∀ before after identifier count body past i later u,
      bs = before ++ .loop identifier count body :: after →
      (Block.loop identifier count body).iterations = past ++ i :: later →
      feed r (applicationSequence before ++ past.flatMap (Iteration.applications body)) v =
        some u →
      ∃ front e back, (ofProgram r p v).trace = front ++ .send e :: back ∧ e.iteration? = some i ∧
        front.filterMap Action.iteration? = before.flatMap Block.iterations ++ past ∧
        front.filterMap Action.application? =
          invocations r
            (applicationSequence before ++ past.flatMap (Iteration.applications body)) v ∧
        back.filterMap Action.application? =
          invocations r (i.applications body ++
            (later.flatMap (Iteration.applications body) ++ applicationSequence after)) u := by
  obtain ⟨bs', rest, rfl, rfl, stuck⟩ := longest.exists_split
  rw [List.take_left] at prefixed
  cases ofBlocks_injective prefixed
  have trace := trace_ofProgram (isUsable_of_ready ready filled) bs stuck v
  have same : (ofProgram r (ofBlocks bs ++ rest) v).iterations =
      (ofTasks r (plan bs) v).iterations := by
    rw [iterations, trace]
    rfl
  constructor
  · intro reached
    rw [same]
    constructor
    · -- Some iterations are come to, and they are the ones that are reported.
      rintro rfl
      obtain ⟨reached, comes⟩ := exists_comesTo r bs v
      rw [iterations_of_comesTo comes]
      exact comes
    · exact iterations_of_comesTo
  · rintro before after identifier count body past i later u rfl split fed
    have counted := areCounted_plan (before ++ .loop identifier count body :: after)
    rw [plan_split split] at counted trace
    have front_applications : (plan before ++ past.flatMap (Iteration.tasks body)).filterMap
        Task.application? =
        applicationSequence before ++ past.flatMap (Iteration.applications body) := by
      rw [List.filterMap_append, applications_tasks]
      rfl
    rw [← front_applications] at fed
    rw [Iteration.tasks, List.cons_append, trace_ofTasks_announce fed] at trace
    refine ⟨_ :: _, _, _, trace, ?_, ?_, ?_, ?_⟩
    · exact (counted.right i (List.mem_cons_self ..)).iteration?_event
    · have reported := iterations_ofTasks_of_fed counted.left fed
      rw [List.filterMap_append, announcements_plan, announcements_iterations] at reported
      exact reported
    · rw [← front_applications, ← applications_ofTasks, applications_eq]
      rfl
    · rw [← applications_eq, applications_ofTasks, List.filterMap_append, List.filterMap_append,
        applications_tasks]
      rfl

theorem reports_iterations_boxing :
    boxing.isReady = true ∧ boxing.isEmpty = false ∧ boxingTwice.IsLongestPrefix 3 ∧
      boxingTwice.take 3 = ofBlocks [.loop "a" 3 [⟨"b", "box", 0⟩]] ∧
      (ofProgram boxing boxingTwice .null).iterations = [⟨"a", 1, 3⟩, ⟨"a", 2, 3⟩] ∧
      ComesTo boxing [.loop "a" 3 [⟨"b", "box", 0⟩]] .null [⟨"a", 1, 3⟩, ⟨"a", 2, 3⟩] ∧
      ∃ front e back, (ofProgram boxing boxingTwice .null).trace = front ++ .send e :: back ∧
        e.iteration? = some ⟨"a", 2, 3⟩ ∧
        front.filterMap Action.application? = [("box", .null)] ∧
        back.filterMap Action.application? = [("box", .array [.null])] := by
  have prefixed : boxingTwice.take 3 = ofBlocks [.loop "a" 3 [⟨"b", "box", 0⟩]] := rfl
  have law := reports_iterations (r := boxing) rfl rfl isLongestPrefix_boxingTwice prefixed .null
  obtain ⟨front, e, back, trace, begins, -, before, behind⟩ :=
    law.2 [] [] "a" 3 [⟨"b", "box", 0⟩] [⟨"a", 1, 3⟩] ⟨"a", 2, 3⟩ [⟨"a", 3, 3⟩] (.array [.null])
      rfl rfl rfl
  exact ⟨rfl, rfl, isLongestPrefix_boxingTwice, prefixed, rfl, (law.1 _).1 rfl,
    front, e, back, trace, begins, before, behind⟩

end Execution

end RecipeEngine
