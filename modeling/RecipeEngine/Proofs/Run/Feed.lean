import RecipeEngine.Proofs.Run.Plan

/-!
# Feeding a value through applications

`feed` takes a value through a list of applications, each output being the next input, and gives
nothing if a key is missing or a function gives no value.  Going through a plan ends with a value
exactly if feeding does, and with the same one (`result_ofTasks_eq_ok_iff`).  The first application
that cannot be made decides how a plan fails, and nothing after it is applied
(`ofTasks_of_refusal`).
-/

namespace RecipeEngine

def Outcome.value? : Outcome → Option Json
  | .value v => some v
  | _ => none

theorem Outcome.value?_eq_some_iff {o : Outcome} {v : Json} : o.value? = some v ↔ o = .value v := by
  cases o <;> simp [value?]

namespace Application

/-- The value that an application gives, if its key is registered and its function gives one. -/
def output? (r : Registry) (a : Application) (v : Json) : Option Json :=
  (r.lookup a.key).bind fun f => (f v).value?

theorem output?_eq_some_iff {r : Registry} {a : Application} {v w : Json} :
    a.output? r v = some w ↔ ∃ f, r.lookup a.key = some f ∧ f v = .value w := by
  simp only [output?, Option.bind_eq_some_iff, Outcome.value?_eq_some_iff]

/-- Why an application to a value fails: its key is missing, or its function refuses. -/
inductive Refusal (r : Registry) (a : Application) (v : Json) : ExecutionError → Prop where
  | missing : r.lookup a.key = none → Refusal r a v (.unknownFunction a.step.name a.key)
  | refused {f : Function} {failure : FunctionFailure} :
      r.lookup a.key = some f → f v = .failure failure →
      Refusal r a v
        (.operationFailed a.step.name a.repetition a.step.repetitions failure.error)

theorem Refusal.source?_eq_none {r : Registry} {a : Application} {v : Json} {e : ExecutionError}
    (refusal : a.Refusal r v e) : e.source? = none := by
  cases refusal <;> rfl

/-- The function and the input of an application, if its key is registered. -/
def invoked (r : Registry) (a : Application) (v : Json) : List (String × Json) :=
  if r.has a.key then [(a.key, v)] else []

end Application

def feed (r : Registry) (as : List Application) (v : Json) : Option Json :=
  as.foldlM (fun v a => a.output? r v) v

/-- The functions that are applied while a value is fed through applications, with their
inputs. -/
def invocations (r : Registry) : List Application → Json → List (String × Json)
  | [], _ => []
  | a :: rest, v =>
      a.invoked r v ++
        match a.output? r v with
        | none => []
        | some w => invocations r rest w

@[simp] theorem feed_nil (r : Registry) (v : Json) : feed r [] v = some v := rfl

@[simp] theorem feed_cons (r : Registry) (a : Application) (as : List Application) (v : Json) :
    feed r (a :: as) v = (a.output? r v).bind (feed r as) := rfl

theorem feed_append (r : Registry) (as as' : List Application) (v : Json) :
    feed r (as ++ as') v = (feed r as v).bind (feed r as') := List.foldlM_append

theorem invocations_cons_of_missing {r : Registry} {a : Application} {v : Json}
    (as : List Application) (missing : r.lookup a.key = none) :
    invocations r (a :: as) v = [] := by
  simp [invocations, Application.invoked, Registry.has, Application.output?, missing]

theorem invocations_cons_of_found {r : Registry} {a : Application} {v : Json}
    (as : List Application) {f : Function} (found : r.lookup a.key = some f) :
    invocations r (a :: as) v =
      (a.key, v) :: (f v).value?.elim [] fun w => invocations r as w := by
  simp only [invocations, Application.invoked, Registry.has, Application.output?, found,
    Option.isSome_some, if_true, Option.bind_some, List.singleton_append]
  cases (f v).value? <;> rfl

theorem feed_repetitions {r : Registry} {s : Step} {f : Function}
    (found : r.lookup s.functionKey = some f) (loop : Option Iteration) (values : Nat → Json)
    {done left : Nat}
    (gives : ∀ k, done ≤ k → k < done + left → f (values k) = .value (values (k + 1))) :
    feed r ((List.range' done left).map fun done => ⟨s, done + 1, loop⟩) (values done) =
      some (values (done + left)) := by
  induction left generalizing done with
  | zero => rfl
  | succ left ih =>
    have first : Application.output? r ⟨s, done + 1, loop⟩ (values done) =
        some (values (done + 1)) := by
      rw [Application.output?, Application.key, found, Option.bind_some,
        gives done (Nat.le_refl done) (by omega)]
      rfl
    rw [List.range'_succ, List.map_cons, feed_cons, first, Option.bind_some,
      ih fun k above below => gives k (by omega) (by omega), Nat.add_right_comm, Nat.add_assoc]

/-- A step takes a value along a row of values as far as it is repeated, if its function takes each
of them to the next. -/
theorem feed_step {r : Registry} {s : Step} {f : Function}
    (found : r.lookup s.functionKey = some f) (loop : Option Iteration) (values : Nat → Json)
    (gives : ∀ k < s.repetitions, f (values k) = .value (values (k + 1))) :
    feed r ((s.tasks loop).filterMap Task.application?) (values 0) =
      some (values s.repetitions) := by
  have applications : (s.tasks loop).filterMap Task.application? =
      (List.range' 0 s.repetitions).map fun done => ⟨s, done + 1, loop⟩ := by
    rw [Step.tasks, List.filterMap_map, List.range_eq_range', ← List.filterMap_eq_map]
    rfl
  rw [applications, feed_repetitions found loop values fun k _ below => gives k (by omega),
    Nat.zero_add]

namespace Execution

/-! ## One application -/

theorem ofApplication_of_missing {r : Registry} {a : Application} (v : Json)
    (missing : r.lookup a.key = none) :
    ofApplication r a v = fail (Iteration.wrap a.loop (.unknownFunction a.step.name a.key)) := by
  rw [ofApplication, missing]

theorem ofApplication_of_found {r : Registry} {a : Application} {f : Function} (v : Json)
    (found : r.lookup a.key = some f) :
    ofApplication r a v =
      ⟨[.send (.diagnostic (repetitionRemark a.step a.repetition)), .apply a.key v],
        match f v with
        | .value w => .ok w
        | .failure failure =>
            .error (.failed (Iteration.wrap a.loop
              (.operationFailed a.step.name a.repetition a.step.repetitions failure.error)))
        | .breakdown words => .error (.brokeDown words)⟩ := by
  simp only [ofApplication, found, apply]
  cases f v <;> rfl

theorem result_ofApplication_eq_ok_iff (r : Registry) (a : Application) (v w : Json) :
    (ofApplication r a v).result = .ok w ↔ a.output? r v = some w := by
  unfold Application.output?
  cases found : r.lookup a.key with
  | none => simp [ofApplication_of_missing v found, fail, halt]
  | some f =>
    rw [ofApplication_of_found v found, Option.bind_some]
    cases f v <;> simp [Outcome.value?]

theorem applications_ofApplication (r : Registry) (a : Application) (v : Json) :
    (ofApplication r a v).applications = a.invoked r v := by
  unfold Application.invoked Registry.has
  cases found : r.lookup a.key with
  | none =>
    rw [ofApplication_of_missing v found]
    rfl
  | some f =>
    rw [ofApplication_of_found v found]
    rfl

/-- An application fails exactly with its refusals, put into the context of its loop. -/
theorem result_ofApplication_eq_failed_iff (r : Registry) (a : Application) (v : Json)
    (e : ExecutionError) :
    (ofApplication r a v).result = .error (.failed e) ↔
      ∃ cause, a.Refusal r v cause ∧ e = Iteration.wrap a.loop cause := by
  constructor
  · intro failed
    cases found : r.lookup a.key with
    | none =>
      rw [ofApplication_of_missing v found] at failed
      cases failed
      exact ⟨_, .missing found, rfl⟩
    | some f =>
      rw [ofApplication_of_found v found] at failed
      cases output : f v with
      | value w => simp [output] at failed
      | breakdown words => simp [output] at failed
      | failure failure =>
        simp only [output, Except.error.injEq, Halt.failed.injEq] at failed
        exact ⟨_, .refused found output, failed.symm⟩
  · rintro ⟨cause, refusal, rfl⟩
    cases refusal with
    | missing unknown =>
      rw [ofApplication_of_missing v unknown]
      rfl
    | refused found refuses =>
      rw [ofApplication_of_found v found]
      simp only [refuses]

/-! ## Plans -/

theorem result_ofTasks_eq_ok_iff (r : Registry) (ts : List Task) (v w : Json) :
    (ofTasks r ts v).result = .ok w ↔ feed r (ts.filterMap Task.application?) v = some w := by
  induction ts generalizing v with
  | nil => simp
  | cons t ts ih =>
    cases t with
    | announce i => exact ih v
    | apply a =>
      rw [List.filterMap_cons, Task.application?, feed_cons, ofTasks_cons, ofTask,
        result_bind_eq_ok_iff, Option.bind_eq_some_iff]
      simp only [result_ofApplication_eq_ok_iff, ih]

/-- Going through a plan applies the functions that feeding does, whether or not it comes to the
end. -/
theorem applications_ofTasks (r : Registry) (ts : List Task) (v : Json) :
    (ofTasks r ts v).applications = invocations r (ts.filterMap Task.application?) v := by
  induction ts generalizing v with
  | nil => rfl
  | cons t ts ih =>
    cases t with
    | announce i => exact ih v
    | apply a =>
      rw [List.filterMap_cons, Task.application?, ofTasks_cons, ofTask, invocations]
      cases goes : (ofApplication r a v).result with
      | ok u =>
        rw [(result_ofApplication_eq_ok_iff r a v u).1 goes, applications_bind_of_ok goes,
          applications_ofApplication, ih u]
      | error reason =>
        have nothing : a.output? r v = none := by
          rw [Option.eq_none_iff_forall_ne_some]
          intro u gives
          rw [(result_ofApplication_eq_ok_iff r a v u).2 gives] at goes
          cases goes
        rw [nothing, applications_bind_of_error goes, applications_ofApplication, List.append_nil]

/-- A plan whose tasks go well up to an application that is refused fails there, and the functions
behind it are not applied. -/
theorem ofTasks_of_refusal {r : Registry} {front : List Task} {a : Application} {v u : Json}
    {cause : ExecutionError} (back : List Task)
    (fed : feed r (front.filterMap Task.application?) v = some u)
    (refusal : a.Refusal r u cause) :
    (ofTasks r (front ++ .apply a :: back) v).result =
        .error (.failed (Iteration.wrap a.loop cause)) ∧
      (ofTasks r (front ++ .apply a :: back) v).applications =
        invocations r (front.filterMap Task.application?) v ++ a.invoked r u := by
  -- The front comes to its end, the application halts, and so the back is not reached.
  have ends := (result_ofTasks_eq_ok_iff r front v u).2 fed
  have failed := (result_ofApplication_eq_failed_iff r a u _).2 ⟨cause, refusal, rfl⟩
  rw [ofTasks_append, (bind_of_ok ends).2, applications_bind_of_ok ends, applications_ofTasks,
    ofTasks_cons, ofTask, (bind_of_error failed).2, applications_bind_of_error failed,
    applications_ofApplication]
  exact ⟨rfl, rfl⟩

/-- A plan fails only with the refusal of one of its applications. -/
theorem exists_refusal_of_failed {r : Registry} {ts : List Task} {v : Json} {e : ExecutionError}
    (failed : (ofTasks r ts v).result = .error (.failed e)) :
    ∃ (a : Application) (u : Json) (cause : ExecutionError),
      a.Refusal r u cause ∧ e = Iteration.wrap a.loop cause := by
  induction ts generalizing v with
  | nil => simp at failed
  | cons t ts ih =>
    rw [ofTasks_cons] at failed
    cases first : (ofTask r v t).result with
    | ok u =>
      rw [(bind_of_ok first).2] at failed
      exact ih failed
    | error reason =>
      rw [(bind_of_error first).2] at failed
      cases failed
      cases t with
      | announce i => cases first
      | apply a =>
        obtain ⟨cause, refusal, same⟩ := (result_ofApplication_eq_failed_iff r a v e).1 first
        exact ⟨a, v, cause, refusal, same⟩

end Execution

end RecipeEngine
