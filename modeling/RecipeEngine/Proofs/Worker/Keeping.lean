import RecipeEngine.Proofs.Worker.Trace

/-!
# The registry in a session

A worker has no registry at first.  Every valid message that finds it so starts the module once,
until a start brings up a registry that fulfils the promise of the module; this registry the worker
keeps for good.  Nothing is applied and no result is sent before the registry is announced, and a
run fails for want of a usable registry exactly if the registry is empty.

A worker whose module breaks down over its promise handles no more messages.  So the session is
described by the turns of those messages that it does handle (`serve_eq_turns_of_handled`).
-/

namespace RecipeEngine.Worker

/-- How the registry is treated in a row of turns, the first of which finds no registry. -/
structure KeepsRegistry (m : FunctionModule) (limit : Duration) (ts : List Turn) : Prop where
  /-- A registry that is held is ready and has every function that the module has promised. -/
  fulfils : ∀ t ∈ ts, ∀ r, t.after.registry = some r → r.Fulfils m
  /-- A registry that is held is held for good, and the module is not started again. -/
  kept : ∀ past t later r, ts = past ++ t :: later → t.after.registry = some r →
    ∀ t' ∈ later, t'.after.registry = some r ∧ t'.after.starts = t.after.starts
  /-- A message that is not valid starts nothing. -/
  unheeded : ∀ t ∈ ts, t.message.isValid = false → t.after = t.before
  /-- A valid message that finds no registry starts the module once, and if this start does not
  bring up a registry, there still is none. -/
  attempted : ∀ t ∈ ts, t.message.isValid = true → t.before.registry = none →
    t.after.starts = t.before.starts + 1 ∧
      ∀ r, t.after.registry = some r ↔ BringUp.attempt m limit t.before.starts = .ready r
  /-- The traces of the turns hold all that is sent and applied. -/
  traced : ∀ t ∈ ts, t.block = t.receipt.emitter.sent (t.trace.filterMap Action.event?) ∧
    t.applications = t.trace.filterMap Action.application?
  /-- Before a function is applied or a result is sent, keys have been announced. -/
  announced : ∀ front action back, ts.flatMap Turn.trace = front ++ action :: back →
    action.isWork = true → ∃ keys, .send (.ready keys) ∈ front
  /-- The keys that are announced are those of the registry, in order. -/
  listed : ∀ t ∈ ts, ∀ keys, (∃ e ∈ t.block, e.event = .ready keys) →
    keys.Pairwise (· < ·) ∧
      ∃ r, t.after.registry = some r ∧ ∀ key, key ∈ keys ↔ r.has key = true
  /-- A run fails for want of a usable registry if and only if it is given an empty one. -/
  failed : ∀ t ∈ ts, ∀ run, t.receipt.run = some run →
    t.after.registry = some run.registry ∧
      (run.execute.result = .error (.failed .registryNotReady) ↔
        ∀ key, run.registry.lookup key = none)
  /-- This failure is reported if and only if a run is asked for and the registry is empty. -/
  reported : ∀ t ∈ ts, (∃ e ∈ t.block, e.event = .unusable) ↔
    ∃ request r, t.message = .run request ∧ t.after.registry = some r ∧
      ∀ key, r.lookup key = none

variable {w : Worker} {m : FunctionModule} {limit : Duration} {measure : Nat → Measurement}
  {messages : List HostMessage} {place : Nat}

theorem isSound_of_mem_turns (sound : w.IsSound m limit) {t : Turn}
    (member : t ∈ w.turns measure messages place) :
    t.before.IsSound m limit ∧ t.after.IsSound m limit := by
  have before : t.before.IsSound m limit :=
    before_of_mem_turns (fun _ message sound => sound.receive message) sound member
  exact ⟨before, before.receive t.message⟩

theorem keepsRegistry_turns (sound : w.IsSound m limit) (unheld : w.registry = none) :
    KeepsRegistry m limit (w.turns measure messages place) where
  fulfils t member := (isSound_of_mem_turns sound member).2.fulfils
  kept past t later r split held t' member := by
    obtain ⟨rest, place', rfl⟩ := later_turns split
    rw [after_of_held held member]
    exact ⟨held, rfl⟩
  unheeded t _ invalid := by
    obtain ⟨before, message, measurement⟩ := t
    cases message with
    | invalid reason correlation => rfl
    | prepare => cases invalid
    | run request => cases invalid
  attempted t member valid unheld := by
    have before := (isSound_of_mem_turns sound member).1
    have once := bringUp_of_unheld unheld
    rw [before.module, before.limit] at once
    rw [Turn.after, Turn.receipt, worker_receive valid]
    exact once
  traced t _ := ⟨t.block_eq_sent, t.applications_eq_trace⟩
  announced front action back split work := by
    -- In the beginning there is nothing to announce.
    have unannounced : ∀ r, w.registry = some r → Action.send (.ready r.keys) ∈ [] := by
      intro r held
      rw [unheld] at held
      cases held
    exact exists_announcement unannounced split work
  listed t _ keys announced := by
    obtain ⟨r, held, rfl⟩ := Turn.registry_of_announced announced
    exact ⟨r.pairwise_keys, r, held, fun _ => Registry.mem_keys_iff⟩
  failed t member run runs := by
    have held := registry_of_run runs
    have fulfils := (isSound_of_mem_turns sound member).2.fulfils
    exact ⟨held, Turn.result_eq_notReady_iff (fulfils _ held).1⟩
  reported t member := by
    have fulfils := (isSound_of_mem_turns sound member).2.fulfils
    exact Turn.unusable_iff fun r held => (fulfils r held).1

/-- A worker answers the messages that it handles with the blocks of their turns, and handles them
all unless it breaks down. -/
theorem serve_eq_turns_of_handled (measure : Nat → Measurement) (w : Worker)
    (messages : List HostMessage) (place : Nat) :
    ∃ handled rest, messages = handled ++ rest ∧
      ((w.serve measure messages place).breakdown = none → rest = []) ∧
      (w.serve measure messages place).blocks = (w.turns measure handled place).map Turn.block ∧
      (w.serve measure messages place).worker =
        ((w.turns measure handled place).getLast?.map Turn.after).getD w := by
  induction messages generalizing w place with
  | nil => exact ⟨[], [], rfl, fun _ => rfl, rfl, rfl⟩
  | cons message rest ih =>
    simp only [serve]
    cases breaks : (w.receive message).breakdown with
    | some words =>
      -- The message at which the worker breaks down is the last one that it handles.
      refine ⟨[message], rest, rfl, ?_, rfl, rfl⟩
      intro unbroken
      cases unbroken
    | none =>
      obtain ⟨handled, unhandled, rfl, whole, blocks, last⟩ :=
        ih (w.receive message).worker (place + 1)
      refine ⟨message :: handled, unhandled, rfl, whole, ?_, ?_⟩
      · rw [turns, List.map_cons]
        exact congrArg _ blocks
      · have after : Turn.after ⟨w, message, measure place⟩ = (w.receive message).worker := rfl
        simp only [turns, List.getLast?_cons, last, after]
        cases ((w.receive message).worker.turns measure handled (place + 1)).getLast? <;> rfl

/-- A worker that begins without a registry keeps the first one that it brings up, however the
starts of its module go and whatever messages it handles. -/
theorem serve_keepsRegistry (m : FunctionModule) (limit : Duration) (diagnostics : Bool)
    (measure : Nat → Measurement) (messages : List HostMessage) (place : Nat) :
    ∃ handled rest, messages = handled ++ rest ∧
      (((new m limit diagnostics).serve measure messages place).breakdown = none → rest = []) ∧
      ((new m limit diagnostics).serve measure messages place).blocks =
        ((new m limit diagnostics).turns measure handled place).map Turn.block ∧
      ((new m limit diagnostics).serve measure messages place).worker =
        (((new m limit diagnostics).turns measure handled place).getLast?.map Turn.after).getD
          (new m limit diagnostics) ∧
      KeepsRegistry m limit ((new m limit diagnostics).turns measure handled place) := by
  obtain ⟨handled, rest, split, whole, blocks, last⟩ :=
    serve_eq_turns_of_handled measure (new m limit diagnostics) messages place
  exact ⟨handled, rest, split, whole, blocks, last,
    keepsRegistry_turns (isSound_new m limit diagnostics) rfl⟩

-- A module that exits at its first start is started a second time, and then no more.
example : ((new { FunctionModule.builtin with start := fun
      | 0 => .exited
      | _ => .ready .builtin } (.ofSeconds 1) false).turns (fun _ => ⟨.ofSeconds 1, "1"⟩)
        [.prepare, .prepare, .prepare] 0).map (fun t => (t.after.starts, t.after.isReady)) =
    [(1, false), (2, true), (2, true)] := rfl

end RecipeEngine.Worker
