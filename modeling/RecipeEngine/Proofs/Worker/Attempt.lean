import RecipeEngine.Proofs.Worker.Holding

/-!
# Attempts to bring up a registry

A worker without a registry that starts its module either takes the registry over as a whole, or
stays as it was and says why (`Worker.bringUp_commits_or_leaves`).  In particular it keeps a start
of its module going only while it holds a registry (`Worker.isTended_of_mem_turns`).  What it does
afterwards depends only on the starts of its module that are still to come (`Worker.Alike.serve`),
so after an attempt that has failed it cannot be told from a new worker whose module has these
starts before it.
-/

namespace RecipeEngine

/-- The module as it is once so many of its starts are over. -/
def FunctionModule.later (m : FunctionModule) (past : Nat) : FunctionModule :=
  { m with start := fun k => m.start (past + k) }

/-- Why a start of a module that has promised the keys `expected` does not bring up a registry. -/
inductive InitError.Explains (limit : Duration) (expected : List String) :
    StartOutcome → InitError → Prop where
  | silent : Explains limit expected .silent (.timeout limit)
  | failed (reason : String) : Explains limit expected (.failed reason) (.moduleFailed reason)
  | exited : Explains limit expected .exited .moduleExited
  /-- The keys are told apart in the order in which they were promised, repeated ones included. -/
  | incomplete (r : Registry) {found missing : List String} :
      found = expected.filter (fun key => r.has key) →
      missing = expected.filter (fun key => !r.has key) → missing ≠ [] →
      Explains limit expected (.ready r) (.missingFunctions found missing)

/-! ## One start -/

theorem acceptRegistry_of_complete {expected : List String} {r : Registry}
    (complete : ∀ key ∈ expected, r.has key = true) :
    acceptRegistry expected r = .ok r.markReady :=
  acceptRegistry_eq_ok_iff.2 ⟨complete, rfl⟩

theorem acceptRegistry_of_incomplete {expected : List String} {r : Registry}
    (incomplete : ¬ ∀ key ∈ expected, r.has key = true) :
    expected.filter (fun key => !r.has key) ≠ [] ∧
      acceptRegistry expected r = .error (.missingFunctions (expected.filter fun key => r.has key)
        (expected.filter fun key => !r.has key)) := by
  have missing : expected.filter (fun key => !r.has key) ≠ [] := by
    simpa [List.filter_eq_nil_iff] using incomplete
  refine ⟨missing, ?_⟩
  rw [acceptRegistry, List.partition_eq_filter_filter]
  exact if_neg (by simpa using missing)

/-- A start brings up the registry of the module, marked ready, if every promised function is
there, and else there is a reason that explains the failure. -/
theorem BringUp.attempt_cases {m : FunctionModule} {expected : List String}
    (promised : m.promise = .keys expected) (limit : Duration) (start : Nat) :
    (∃ r, m.start start = .ready r ∧ (∀ key ∈ expected, r.has key = true) ∧
      attempt m limit start = .ready r.markReady) ∨
    ∃ e, InitError.Explains limit expected (m.start start) e ∧
      attempt m limit start = .failed e := by
  rw [attempt]
  cases m.start start with
  | silent => exact .inr ⟨_, .silent, rfl⟩
  | failed reason => exact .inr ⟨_, .failed reason, rfl⟩
  | exited => exact .inr ⟨_, .exited, rfl⟩
  | ready r =>
    by_cases complete : ∀ key ∈ expected, r.has key = true
    · refine .inl ⟨r, rfl, complete, ?_⟩
      simp only [ofRegistry, promised, acceptRegistry_of_complete complete]
    · obtain ⟨missing, refused⟩ := acceptRegistry_of_incomplete complete
      refine .inr ⟨_, .incomplete r rfl rfl missing, ?_⟩
      simp only [ofRegistry, promised, refused]

/-- Nothing explains the failure of a start that gives every promised function. -/
theorem InitError.Explains.not_complete {limit : Duration} {expected : List String} {r : Registry}
    {e : InitError} (explains : Explains limit expected (.ready r) e) :
    ¬ ∀ key ∈ expected, r.has key = true := by
  intro complete
  cases explains with
  | incomplete _ found missing some_missing =>
    rw [missing] at some_missing
    exact some_missing (List.filter_eq_nil_iff.2 fun key member => by simp [complete key member])

namespace Worker

/-! ## Workers that cannot be told apart -/

/-- Whether two workers agree in everything that is still to come. -/
structure Alike (w w' : Worker) : Prop where
  promise : w.module.promise = w'.module.promise
  starts : ∀ k, w.module.start (w.starts + k) = w'.module.start (w'.starts + k)
  limit : w.limit = w'.limit
  diagnostics : w.diagnostics = w'.diagnostics
  registry : w.registry = w'.registry

variable {w w' : Worker}

theorem Alike.attempt (alike : Alike w w') :
    BringUp.attempt w.module w.limit w.starts = BringUp.attempt w'.module w'.limit w'.starts := by
  have same : w.module.start w.starts = w'.module.start w'.starts := alike.starts 0
  simp only [BringUp.attempt, BringUp.ofRegistry, same, alike.limit, alike.promise]

theorem Alike.bringUp (alike : Alike w w') :
    w.bringUp.2 = w'.bringUp.2 ∧ Alike w.bringUp.1 w'.bringUp.1 := by
  have further : ∀ k, w.module.start (w.starts + 1 + k) = w'.module.start (w'.starts + 1 + k) := by
    intro k
    rw [Nat.add_assoc, Nat.add_assoc]
    exact alike.starts (1 + k)
  cases held : w'.registry with
  | some r =>
    simp only [Worker.bringUp, alike.registry, held]
    exact ⟨trivial, alike⟩
  | none =>
    simp only [Worker.bringUp, alike.registry, held, alike.attempt]
    cases BringUp.attempt w'.module w'.limit w'.starts <;>
      exact ⟨rfl, alike.promise, further, alike.limit, alike.diagnostics, rfl⟩

/-- Workers that are alike receive a message alike. -/
theorem Alike.receive (alike : Alike w w') (message : HostMessage) :
    (w.receive message).correlation = (w'.receive message).correlation ∧
      (w.receive message).events = (w'.receive message).events ∧
      (w.receive message).run = (w'.receive message).run ∧
      (w.receive message).breakdown = (w'.receive message).breakdown ∧
      Alike (w.receive message).worker (w'.receive message).worker := by
  obtain ⟨outcome, after⟩ := alike.bringUp
  cases message with
  | invalid reason correlation => exact ⟨rfl, rfl, rfl, rfl, alike⟩
  | prepare =>
    simp only [Worker.receive, receivePrepare, outcome]
    exact ⟨trivial, trivial, trivial, trivial, after⟩
  | run request =>
    cases held : w'.registry with
    | some r =>
      simp only [Worker.receive, receiveRun, alike.registry, held]
      exact ⟨trivial, trivial, trivial, trivial, alike⟩
    | none =>
      simp only [Worker.receive, receiveRun, alike.registry, held, outcome]
      exact ⟨trivial, trivial, trivial, trivial, after⟩

theorem Alike.block (alike : Alike w w') (message : HostMessage) (m : Measurement) :
    (w.receive message).block m = (w'.receive message).block m := by
  obtain ⟨correlation, events, run, -, after⟩ := alike.receive message
  simp only [Receipt.block, Receipt.emitter, Receipt.eventsWith, correlation, events, run,
    after.diagnostics]

/-- Workers that are alike answer every row of messages alike. -/
theorem Alike.serve (alike : Alike w w') (measure : Nat → Measurement)
    (messages : List HostMessage) (place : Nat) :
    (w.serve measure messages place).blocks = (w'.serve measure messages place).blocks ∧
      (w.serve measure messages place).breakdown = (w'.serve measure messages place).breakdown ∧
      Alike (w.serve measure messages place).worker (w'.serve measure messages place).worker := by
  induction messages generalizing w w' place with
  | nil => exact ⟨rfl, rfl, alike⟩
  | cons message rest ih =>
    obtain ⟨-, -, -, breakdown, after⟩ := alike.receive message
    have first := alike.block message (measure place)
    obtain ⟨blocks, breaks, last⟩ := ih after (place + 1)
    simp only [Worker.serve, first, breakdown]
    cases (w'.receive message).breakdown with
    | some words => exact ⟨rfl, rfl, after⟩
    | none => exact ⟨congrArg (_ :: ·) blocks, breaks, last⟩

/-! ## An attempt -/

variable {expected : List String}

/-- Whether a start of the module is kept going if and only if a registry is held. -/
def IsTended (w : Worker) : Prop := w.task.isSome = w.registry.isSome

theorem isTended_new (m : FunctionModule) (limit : Duration) (diagnostics : Bool) :
    (new m limit diagnostics).IsTended := rfl

theorem IsTended.bringUp (tended : w.IsTended) : w.bringUp.1.IsTended := by
  cases held : w.registry with
  | some r => simpa only [Worker.bringUp, held] using tended
  | none =>
    simp only [Worker.bringUp, held]
    cases BringUp.attempt w.module w.limit w.starts with
    | ready r => rfl
    | failed e => exact held ▸ tended
    | brokeDown words => exact held ▸ tended

theorem IsTended.receive (tended : w.IsTended) (message : HostMessage) :
    (w.receive message).worker.IsTended := by
  cases valid : message.isValid with
  | true => exact worker_receive valid ▸ tended.bringUp
  | false =>
    cases message with
    | invalid reason correlation => exact tended
    | prepare | run request => cases valid

/-- In a session a start of the module is kept going exactly while a registry is held. -/
theorem isTended_of_mem_turns (tended : w.IsTended) {measure : Nat → Measurement}
    {messages : List HostMessage} {place : Nat} {t : Turn}
    (member : t ∈ w.turns measure messages place) : t.before.IsTended ∧ t.after.IsTended := by
  have before : t.before.IsTended :=
    before_of_mem_turns (fun _ message tended => tended.receive message) tended member
  exact ⟨before, before.receive t.message⟩

/-- A worker that starts its module takes over a registry that is complete, and keeps that start
going; otherwise all that changes is that one more start of the module is over. -/
theorem bringUp_of_unheld_cases (unheld : w.registry = none)
    (promised : w.module.promise = .keys expected) :
    (∃ r, w.module.start w.starts = .ready r ∧ (∀ key ∈ expected, r.has key = true) ∧
      w.bringUp = ({ w with starts := w.starts + 1, registry := some r.markReady,
                            task := some w.starts }, .ready r.markReady)) ∨
    ∃ e, InitError.Explains w.limit expected (w.module.start w.starts) e ∧
      w.bringUp = ({ w with starts := w.starts + 1 }, .failed e) := by
  obtain ⟨r, ready, complete, outcome⟩ | ⟨e, explains, outcome⟩ :=
    BringUp.attempt_cases promised w.limit w.starts
  · refine .inl ⟨r, ready, complete, ?_⟩
    simp only [Worker.bringUp, unheld, outcome]
  · refine .inr ⟨e, explains, ?_⟩
    simp only [Worker.bringUp, unheld, outcome]

/-- A worker without a registry is like a new one whose module has yet to make the starts that are
left. -/
theorem alike_new_of_unheld (unheld : w.registry = none) :
    Alike w (new (w.module.later w.starts) w.limit w.diagnostics) where
  promise := rfl
  starts k := by
    show w.module.start (w.starts + k) = w.module.start (w.starts + (0 + k))
    rw [Nat.zero_add]
  limit := rfl
  diagnostics := rfl
  registry := unheld

/-- An attempt to bring up a registry either succeeds, exactly with a registry that holds every
promised function, which the worker then holds as it is and marked ready; or it fails for the
reason that explains how the start has gone, and leaves the worker as it was before, so that in all
that follows it is like a new worker. -/
theorem bringUp_commits_or_leaves (unheld : w.registry = none)
    (promised : w.module.promise = .keys expected) :
    ((∃ held, w.bringUp.2 = .ready held) ↔
      ∃ r, w.module.start w.starts = .ready r ∧ ∀ key ∈ expected, r.has key = true) ∧
    (∀ r, w.module.start w.starts = .ready r → (∀ key ∈ expected, r.has key = true) →
      w.bringUp = ({ w with starts := w.starts + 1, registry := some r.markReady,
                            task := some w.starts }, .ready r.markReady) ∧
      r.markReady.isReady = true ∧ ∀ key, r.markReady.lookup key = r.lookup key) ∧
    ((¬∃ held, w.bringUp.2 = .ready held) →
      (∃ e, InitError.Explains w.limit expected (w.module.start w.starts) e ∧
        w.bringUp = ({ w with starts := w.starts + 1 }, .failed e)) ∧
      w.bringUp.1.registry = none ∧ (w.IsTended → w.bringUp.1.task = none) ∧
      let fresh := new (w.module.later (w.starts + 1)) w.limit w.diagnostics
      w.bringUp.1.bringUp.2 = fresh.bringUp.2 ∧
        w.bringUp.1.bringUp.1.registry = fresh.bringUp.1.registry ∧
        ∀ measure messages place,
          (w.bringUp.1.serve measure messages place).blocks =
            (fresh.serve measure messages place).blocks) := by
  obtain ⟨r, ready, complete, outcome⟩ | ⟨e, explains, outcome⟩ :=
    bringUp_of_unheld_cases unheld promised
  · rw [outcome, ready]
    refine ⟨⟨fun _ => ⟨r, rfl, complete⟩, fun _ => ⟨_, rfl⟩⟩, ?_, fun fails => absurd ⟨_, rfl⟩ fails⟩
    intro r' same _
    cases same
    exact ⟨rfl, rfl, fun _ => rfl⟩
  · -- What explains a failure rules success out, so the first two parts have nothing to show.
    have incomplete : ∀ r, w.module.start w.starts = .ready r →
        ¬ ∀ key ∈ expected, r.has key = true := by
      intro r ready
      rw [ready] at explains
      exact explains.not_complete
    rw [outcome]
    refine ⟨⟨?_, ?_⟩, ?_, fun _ => ⟨⟨e, explains, rfl⟩, unheld, ?_, ?_⟩⟩
    · rintro ⟨held, same⟩
      cases same
    · rintro ⟨r, ready, complete⟩
      exact absurd complete (incomplete r ready)
    · intro r ready complete
      exact absurd complete (incomplete r ready)
    · intro tended
      rw [IsTended, unheld] at tended
      exact Option.not_isSome_iff_eq_none.1 (by simp [tended])
    · have alike := alike_new_of_unheld (w := { w with starts := w.starts + 1 }) unheld
      obtain ⟨next, after⟩ := alike.bringUp
      exact ⟨next, after.registry, fun measure messages place =>
        (alike.serve measure messages place).1⟩

/-- A module that promises a key twice and forgets it at its first start. -/
def forgetful : FunctionModule where
  name := "forgetful"
  promise := .keys ["box", "wrap", "box"]
  start
    | 0 => .ready (Registry.empty.register "wrap" Execution.boxOnce)
    | _ => .exited

theorem bringUp_commits_or_leaves_forgetful :
    (new forgetful (.ofSeconds 1) false).registry = none ∧
      forgetful.promise = .keys ["box", "wrap", "box"] ∧
      (¬∃ held, (new forgetful (.ofSeconds 1) false).bringUp.2 = .ready held) ∧
      (new forgetful (.ofSeconds 1) false).bringUp =
        ({ new forgetful (.ofSeconds 1) false with starts := 1 },
          .failed (.missingFunctions ["wrap"] ["box", "box"])) := by
  obtain ⟨brought, -, failed⟩ :=
    bringUp_commits_or_leaves (w := new forgetful (.ofSeconds 1) false) rfl rfl
  have fails : ¬∃ held, (new forgetful (.ofSeconds 1) false).bringUp.2 = .ready held := by
    intro held
    obtain ⟨r, ready, complete⟩ := brought.1 held
    cases ready
    exact absurd (complete "box" (List.mem_cons_self ..)) (by decide)
  obtain ⟨⟨e, explains, after⟩, -⟩ := failed fails
  refine ⟨rfl, rfl, fails, after.trans ?_⟩
  cases explains with
  | incomplete r found missing => rw [found, missing]; rfl

end Worker

end RecipeEngine
