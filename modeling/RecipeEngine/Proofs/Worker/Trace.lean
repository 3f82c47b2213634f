import RecipeEngine.Proofs.Run.Progress
import RecipeEngine.Proofs.Run.Unready
import RecipeEngine.Proofs.Worker.Holding

/-!
# What a turn does, in order

The trace of a turn holds all that is done in answer to its message, in order: what is said on the
receipt, and then the run.  A function is applied or a result sent only by a worker that holds a
registry, and when it does so it has announced that registry, in this turn or before
(`exists_announcement`).
-/

namespace RecipeEngine

def Action.event? : Action → Option Event
  | .send e => some e
  | .apply _ _ => none

/-- Whether an action can only be part of a run: a function is applied, or a result is sent. -/
def Action.isWork : Action → Bool
  | .apply _ _ => true
  | .send (.finalResult _) => true
  | .send _ => false

/-! ## The trace of a turn -/

namespace Turn

/-- What is done in answer to the message, in order. -/
def trace (t : Turn) : List Action :=
  t.receipt.events.map .send ++
    match t.receipt.run with
    | none => []
    | some run =>
        run.execute.trace ++
          (outcomeEvents t.measurement run.execute.result ++ closingEvents t.measurement).map .send

/-- The events in the trace of a turn are those that make up its block. -/
theorem block_eq_sent (t : Turn) :
    t.block = t.receipt.emitter.sent (t.trace.filterMap Action.event?) := by
  have sends (events : List Event) : (events.map Action.send).filterMap Action.event? = events := by
    rw [List.filterMap_map]
    exact List.filterMap_some
  have executed (x : Execution Json) : x.trace.filterMap Action.event? = x.events := rfl
  rw [block, Receipt.block, trace]
  cases t.receipt.run with
  | none => simp only [Option.map_none, Receipt.eventsWith, List.append_nil, sends]
  | some run =>
    simp only [Option.map_some, Receipt.eventsWith, runEvents, List.filterMap_append, sends,
      executed, List.append_assoc]

theorem applications_eq_trace (t : Turn) :
    t.applications = t.trace.filterMap Action.application? := by
  have unapplied (events : List Event) :
      (events.map Action.send).filterMap Action.application? = [] := by
    rw [List.filterMap_map]
    exact List.filterMap_eq_nil_iff.2 fun _ _ => rfl
  rw [applications, trace]
  cases t.receipt.run with
  | none => simp only [List.append_nil, unapplied]
  | some run =>
    simp only [List.filterMap_append, unapplied, List.nil_append, List.append_nil,
      Execution.applications_eq]

end Turn

/-! ## Nothing is done before the registry is announced -/

/-- An element of a row in two parts stands in the first part or in the second. -/
theorem append_eq_append_cons {α : Type} {first second front back : List α} {a : α}
    (split : first ++ second = front ++ a :: back) :
    (∃ between, first = front ++ a :: between) ∨
      ∃ between, front = first ++ between ∧ second = between ++ a :: back := by
  obtain ⟨between, rfl, later⟩ | ⟨between, rfl, later⟩ := List.append_eq_append_iff.1 split
  · exact .inr ⟨between, rfl, later⟩
  · cases between with
    | nil => exact .inr ⟨[], by simp, later.symm⟩
    | cons a' between =>
      cases later
      exact .inl ⟨between, rfl⟩

namespace Worker

theorem isWork_of_mem_events {w : Worker} {message : HostMessage} {e : Event}
    (member : e ∈ (w.receive message).events) : (Action.send e).isWork = false := by
  obtain remark | ⟨words, rfl⟩ | ⟨-, reported⟩ | ⟨reason, rfl⟩ | rfl := of_mem_events member
  · cases e <;> first | rfl | cases remark
  · rfl
  · have preliminary := isPreliminary_of_mem_bringUpEvents e reported
    cases e <;> first | rfl | cases preliminary
  · rfl
  · rfl

/-- When a turn works, its worker holds a registry, and it has announced it if it had none before
the turn. -/
theorem announced_of_isWork {t : Turn} {front back : List Action} {action : Action}
    (split : t.trace = front ++ action :: back) (work : action.isWork = true) :
    ∃ r, t.after.registry = some r ∧
      (t.before.registry = none → .send (.ready r.keys) ∈ front) := by
  rw [Turn.trace] at split
  obtain ⟨between, received⟩ | ⟨between, rfl, later⟩ := append_eq_append_cons split
  · -- What is said on the receipt is no work.
    have member : action ∈ t.receipt.events.map Action.send := by
      rw [received]
      exact List.mem_append_right front (List.mem_cons_self ..)
    obtain ⟨e, said, rfl⟩ := List.mem_map.1 member
    rw [isWork_of_mem_events said] at work
    cases work
  · cases runs : t.receipt.run with
    | none => simp [runs] at later
    | some run =>
      have held := registry_of_run runs
      refine ⟨run.registry, held, fun unheld => ?_⟩
      exact List.mem_append_left between (List.mem_map_of_mem (ready_mem_events unheld held))

theorem exists_announcement {w : Worker} {measure : Nat → Measurement}
    {messages : List HostMessage} {place : Nat} {past : List Action}
    (announced : ∀ r, w.registry = some r → .send (.ready r.keys) ∈ past)
    {front back : List Action} {action : Action}
    (split : (w.turns measure messages place).flatMap Turn.trace = front ++ action :: back)
    (work : action.isWork = true) : ∃ keys, .send (.ready keys) ∈ past ++ front := by
  -- What past turns have announced is carried along, so that a later turn may rely on it.
  induction messages generalizing w place past front with
  | nil => simp [turns] at split
  | cons message rest ih =>
    rw [turns, List.flatMap_cons] at split
    obtain ⟨between, here⟩ | ⟨between, rfl, later⟩ := append_eq_append_cons split
    · obtain ⟨r, held, fresh⟩ := announced_of_isWork here work
      cases before : w.registry with
      | none => exact ⟨r.keys, List.mem_append_right past (fresh before)⟩
      | some r' => exact ⟨r'.keys, List.mem_append_left front (announced r' before)⟩
    · -- The work is done in a later turn, and this one belongs to its past.
      rw [← List.append_assoc]
      refine ih ?_ later
      intro r held
      cases before : w.registry with
      | none =>
        have announcement := List.mem_map_of_mem (f := Action.send) (ready_mem_events before held)
        exact List.mem_append_right past (List.mem_append_left _ announcement)
      | some r' =>
        rw [Turn.after, Turn.receipt, worker_receive_of_held before, before] at held
        cases held
        exact List.mem_append_left _ (announced r before)

end Worker

end RecipeEngine
