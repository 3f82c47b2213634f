import RecipeEngine.Proofs.Function.Raw
import RecipeEngine.Proofs.Run.Outcome

/-!
# How values are passed on in a run

What a function gives goes to the application that is due next.  If none is due, or if its key is
missing, the run ends there, with the value or with a fault of the recipe (`IsPassedOn`).  Only a
function that gives no value ends the run by itself (`exists_passing`).

Where all functions are raw, a report of failure is therefore seen by no function and by no reader
of the result: it ends the run that it arises in (`structured_failures_never_pass`).
-/

namespace RecipeEngine

/-! ## The applications of a run, one by one -/

/-- Each invocation stems from an application that the value has been fed up to, and what its
function gives is fed to the applications behind it. -/
theorem exists_application_of_invocations {r : Registry} {as : List Application} {v : Json}
    {key : String} {input : Json} {front later : List (String × Json)}
    (split : invocations r as v = front ++ (key, input) :: later) :
    ∃ before a due f, as = before ++ a :: due ∧ before.length = front.length ∧ a.key = key ∧
      r.lookup key = some f ∧ feed r before v = some input ∧
      later = (f input).value?.elim [] fun w => invocations r due w := by
  induction as generalizing v front with
  | nil => simp [invocations] at split
  | cons a as ih =>
    cases found : r.lookup a.key with
    | none =>
      rw [invocations_cons_of_missing as found] at split
      simp at split
    | some f =>
      rw [invocations_cons_of_found as found] at split
      cases front with
      | nil =>
        rw [List.nil_append, List.cons.injEq, Prod.mk.injEq] at split
        obtain ⟨⟨rfl, rfl⟩, rfl⟩ := split
        exact ⟨[], a, as, f, rfl, rfl, rfl, found, rfl, rfl⟩
      | cons first front =>
        rw [List.cons_append, List.cons.injEq] at split
        -- The function has given a value, or there would be nothing behind its invocation.
        cases gives : (f v).value? with
        | none => simp [gives] at split
        | some w =>
          rw [gives] at split
          obtain ⟨before, a', due, f', rfl, length, rest⟩ := ih split.2
          have fed : feed r (a :: before) v = feed r before w := by
            rw [feed_cons, Application.output?, found, Option.bind_some, gives, Option.bind_some]
          refine ⟨a :: before, a', due, f', rfl, congrArg (· + 1) length, ?_⟩
          rw [fed]
          exact rest

/-- What becomes of a value `w` when the applications `due` are still to be made: which functions
are applied from then on, and what the run results in.  `k` is the length of the longest
well-formed prefix of the recipe. -/
inductive IsPassedOn (r : Registry) (p : Program) (k : Nat) (w : Json) :
    List Application → List (String × Json) → Except Halt Json → Prop where
  /-- The next application is given it. -/
  | next (a : Application) (due : List Application) (later : List (String × Json))
      (result : Except Halt Json) : IsPassedOn r p k w (a :: due) ((a.key, w) :: later) result
  /-- The key of the next application is missing. -/
  | missing {a : Application} (due : List Application) :
      r.lookup a.key = none →
      IsPassedOn r p k w (a :: due) []
        (.error (.failed (Iteration.wrap a.loop (.unknownFunction a.step.name a.key))))
  /-- The run ends with it. -/
  | last : p.length = k → IsPassedOn r p k w [] [] (.ok w)
  /-- There is a defect behind the last application. -/
  | defect {e : ExecutionError} :
      p.Defect k e → IsPassedOn r p k w [] [] (.error (.failed e))

namespace Execution

open Program

/-! ## Runs of a recipe that is a row of blocks and a rest -/

section

variable {r : Registry} {bs : List Block} {rest : Program} {v : Json}

theorem applications_ofProgram (usable : r.isUsable = true) (stuck : IsStuck rest) :
    (ofProgram r (ofBlocks bs ++ rest) v).applications =
      invocations r (applicationSequence bs) v := by
  rw [applicationSequence, ← applications_ofTasks, applications, trace_ofProgram usable bs stuck]
  rfl

/-- If the application that is due halts, that is the result of the run. -/
theorem result_ofProgram_of_halted (usable : r.isUsable = true) (stuck : IsStuck rest)
    {before due : List Application} {a : Application} {u : Json} {reason : Halt}
    (sequence : applicationSequence bs = before ++ a :: due) (fed : feed r before v = some u)
    (halted : (ofApplication r a u).result = .error reason) :
    (ofProgram r (ofBlocks bs ++ rest) v).result = .error reason := by
  obtain ⟨front, back, tasks, rfl⟩ := exists_tasks_of_applications sequence
  have ends := (result_ofTasks_eq_ok_iff r front v u).2 fed
  have gone : (ofTasks r (plan bs) v).result = .error reason := by
    rw [tasks, ofTasks_append, (bind_of_ok ends).2, ofTasks_cons, ofTask, (bind_of_error halted).2]
  rw [ofProgram_of_halt usable stuck gone, result_remark_bind, gone]

/-- A value that has been fed up to the applications that are due is passed on. -/
theorem isPassedOn_of_feed (usable : r.isUsable = true) (stuck : IsStuck rest)
    {before due : List Application} {w : Json}
    (sequence : applicationSequence bs = before ++ due) (fed : feed r before v = some w) :
    IsPassedOn r (ofBlocks bs ++ rest) (ofBlocks bs).length w due (invocations r due w)
      (ofProgram r (ofBlocks bs ++ rest) v).result := by
  cases due with
  | nil =>
    rw [List.append_nil] at sequence
    rw [← sequence] at fed
    have ends := (result_ofTasks_eq_ok_iff r (plan bs) v w).2 fed
    rcases ofProgram_cases usable bs stuck v with ⟨rfl, run⟩ | ⟨e, defect, run⟩
    · rw [run, result_remark_bind, ends]
      exact .last (congrArg List.length (List.append_nil _))
    · rw [run, result_remark_bind, (bind_of_ok ends).2]
      exact .defect defect
  | cons a due =>
    cases found : r.lookup a.key with
    | none =>
      have halted := congrArg result (ofApplication_of_missing w found)
      rw [invocations_cons_of_missing due found,
        result_ofProgram_of_halted usable stuck sequence fed halted]
      exact .missing due found
    | some f =>
      rw [invocations_cons_of_found due found]
      exact .next a due _ _

end

/-- What becomes of the values that functions give in a run: they are passed on.  A function that
gives none is the last one that is applied. -/
theorem exists_passing (r : Registry) (p : Program) (v : Json) :
    ∃ k bs, p.IsLongestPrefix k ∧ p.take k = ofBlocks bs ∧
      ∀ front key input later,
        (ofProgram r p v).applications = front ++ (key, input) :: later →
          ∃ before a due f, applicationSequence bs = before ++ a :: due ∧
            before.length = front.length ∧ a.key = key ∧ r.lookup key = some f ∧
            feed r before v = some input ∧
            match f input with
            | .value w => IsPassedOn r p k w due later (ofProgram r p v).result
            | .failure failure =>
                later = [] ∧
                (ofProgram r p v).result = .error (.failed (Iteration.wrap a.loop
                  (.operationFailed a.step.name a.repetition a.step.repetitions failure.error)))
            | .breakdown words =>
                later = [] ∧ (ofProgram r p v).result = .error (.brokeDown words) := by
  obtain ⟨bs, rest, rfl, stuck⟩ := exists_ofBlocks_append p
  refine ⟨(ofBlocks bs).length, bs, (isLongestPrefix_iff bs rest).2 stuck, List.take_left, ?_⟩
  intro front key input later split
  by_cases usable : r.isUsable = true
  · rw [applications_ofProgram usable stuck] at split
    obtain ⟨before, a, due, f, sequence, length, rfl, found, fed, rfl⟩ :=
      exists_application_of_invocations split
    refine ⟨before, a, due, f, sequence, length, rfl, found, fed, ?_⟩
    have applied := congrArg result (ofApplication_of_found input found)
    cases gives : f input with
    | value w =>
      -- With the application behind it, the value has been fed one further.
      have further : feed r (before ++ [a]) v = some w := by
        rw [feed_append, fed, Option.bind_some, feed_cons,
          Application.output?_eq_some_iff.2 ⟨f, found, gives⟩]
        rfl
      rw [List.append_cons] at sequence
      exact isPassedOn_of_feed usable stuck sequence further
    | failure failure =>
      rw [gives] at applied
      exact ⟨rfl, result_ofProgram_of_halted usable stuck sequence fed applied⟩
    | breakdown words =>
      rw [gives] at applied
      exact ⟨rfl, result_ofProgram_of_halted usable stuck sequence fed applied⟩
  · -- A registry that is not usable applies no functions.
    rw [ofProgram_of_unusable usable] at split
    cases front <;> cases split

/-! ## Runs over raw functions -/

section

variable {r : Registry} {raw : String → Option RawFunction}

/-- A report of failure does not come out of feeding, whatever is fed. -/
theorem not_reports_of_feed (isRaw : r.IsRaw raw) {as : List Application} (applied : as ≠ [])
    {v w : Json} (fed : feed r as v = some w) (detail : String) : ¬ w.Reports detail := by
  -- It is the last application that gives the value.
  obtain ⟨before, a, rfl⟩ := (List.eq_nil_or_concat as).resolve_left applied
  rw [List.concat_eq_append, feed_append, Option.bind_eq_some_iff] at fed
  obtain ⟨u, -, last⟩ := fed
  rw [feed_cons, Option.bind_eq_some_iff] at last
  obtain ⟨w', output, same⟩ := last
  cases same
  obtain ⟨f, found, gives⟩ := Application.output?_eq_some_iff.1 output
  obtain ⟨g, -, rfl⟩ := isRaw.exists_of_lookup found
  exact (RawFunction.toFunction_eq_value_iff.1 gives).2 detail

/-- No function but the first is given a report of failure, and no run ends with one that has
applied a function.  The first function that gives such a report ends the run with the detail that
it has reported.  Everything else that a function gives is passed on as it is. -/
theorem structured_failures_never_pass (isRaw : r.IsRaw raw) (p : Program) (v : Json) :
    (∀ applied ∈ (ofProgram r p v).applications.tail, ∀ detail, ¬ applied.2.Reports detail) ∧
    (∀ w, (ofProgram r p v).result = .ok w → (ofProgram r p v).applications ≠ [] →
      ∀ detail, ¬ w.Reports detail) ∧
    ∃ k bs, p.IsLongestPrefix k ∧ p.take k = ofBlocks bs ∧
      ∀ front key input later,
        (ofProgram r p v).applications = front ++ (key, input) :: later →
          ∃ a due f, (applicationSequence bs).drop front.length = a :: due ∧ a.key = key ∧
            raw key = some f ∧
            ∀ given, f input = .ok given →
              (∀ detail, given.Reports detail →
                later = [] ∧
                ∃ e, (ofProgram r p v).result = .error (.failed e) ∧
                  e.root =
                    .operationFailed a.step.name a.repetition a.step.repetitions detail) ∧
              ((∀ detail, ¬ given.Reports detail) →
                IsPassedOn r p k given due later (ofProgram r p v).result) := by
  obtain ⟨k, bs, longest, prefixed, passing⟩ := exists_passing r p v
  refine ⟨?_, ?_, k, bs, longest, prefixed, ?_⟩
  · intro applied member
    -- The function in front of it has been fed to it.
    cases applications : (ofProgram r p v).applications with
    | nil => simp [applications] at member
    | cons first others =>
      rw [applications, List.tail_cons] at member
      obtain ⟨front, later, rfl⟩ := List.append_of_mem member
      obtain ⟨before, a, due, f, -, length, -, -, fed, -⟩ :=
        passing (first :: front) applied.1 applied.2 later applications
      have behind : before ≠ [] := by
        rintro rfl
        simp at length
      exact not_reports_of_feed isRaw behind fed
  · intro w ends applied
    have usable := isUsable_of_ok ends
    obtain ⟨bs, rfl, planned⟩ := exists_ofBlocks_of_ok usable ends
    rw [ofProgram_ofBlocks usable, applications_remark_bind, applications_ofTasks] at applied
    refine not_reports_of_feed isRaw ?_ ((result_ofTasks_eq_ok_iff r (plan bs) v w).1 planned)
    intro idle
    rw [idle] at applied
    exact applied rfl
  · intro front key input later split
    obtain ⟨before, a, due, f, sequence, length, same, found, -, passed⟩ :=
      passing front key input later split
    obtain ⟨g, registered, rfl⟩ := isRaw.exists_of_lookup found
    have dropped : (applicationSequence bs).drop front.length = a :: due := by
      rw [sequence, ← length, List.drop_left]
    refine ⟨a, due, g, dropped, same, registered, fun given gives => ⟨?_, ?_⟩⟩
    · intro detail reports
      have refuses : g.toFunction input = .failure ⟨detail⟩ :=
        RawFunction.toFunction_eq_failure_iff.2 ⟨given, gives, reports⟩
      rw [refuses] at passed
      exact ⟨passed.1, _, passed.2, root_wrap a.loop rfl⟩
    · intro plain
      rw [RawFunction.toFunction_eq_value_iff.2 ⟨gives, plain⟩] at passed
      exact passed

/-- Gives two values that look like reports of failure, and then such a report. -/
def turn : Json → Json
  | .null => .object [("error", .boolean false)]
  | .object _ => .array [.object [("error", .string "inside")]]
  | _ => .object [("error", .string "turned too often")]

def turning : Registry := (Registry.empty.registerRaw "turn" turn).markReady

def turningOften : Program :=
  [.loopStart "a" 2, .step ⟨"t", "turn", 2⟩, .loopEnd "a", .step ⟨"t", "turn", 0⟩]

theorem isRaw_turning :
    turning.IsRaw fun key => if key = "turn" then some fun v => .ok (turn v) else none :=
  (Registry.IsRaw.empty.registerRaw "turn" turn).markReady

theorem structured_failures_never_pass_turning :
    (turning.IsRaw fun key => if key = "turn" then some fun v => .ok (turn v) else none) ∧
      (ofProgram turning turningOften .null).applications =
        [("turn", .null), ("turn", .object [("error", .boolean false)]),
          ("turn", .array [.object [("error", .string "inside")]])] ∧
      (∀ applied ∈ (ofProgram turning turningOften .null).applications.tail,
        ∀ detail, ¬ applied.2.Reports detail) ∧
      ∃ e step iteration total, (ofProgram turning turningOften .null).result =
          .error (.failed e) ∧
        e.root = .operationFailed step iteration total "turned too often" := by
  obtain ⟨given, -, k, bs, -, -, each⟩ :=
    structured_failures_never_pass isRaw_turning turningOften .null
  obtain ⟨a, due, f, -, -, registered, returns⟩ := each [_, _] _ _ [] rfl
  cases registered
  obtain ⟨-, e, failed, root⟩ := (returns _ rfl).1 "turned too often" ⟨_, rfl, rfl⟩
  exact ⟨isRaw_turning, rfl, given, e, _, _, _, failed, root⟩

end

end Execution

end RecipeEngine
