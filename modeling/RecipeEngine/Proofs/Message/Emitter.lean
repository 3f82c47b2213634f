import RecipeEngine.Message.Emitter

/-!
# What comes out of an emitter

An emitter puts its id on every event that comes out of it and keeps nothing back but remarks.
-/

namespace RecipeEngine.Emitter

variable {emitter : Emitter} {events : List Event}

theorem of_mem_sent {e : TaggedEvent} (member : e ∈ emitter.sent events) :
    e.correlation = emitter.correlation ∧ e.event ∈ events := by
  obtain ⟨event, kept, rfl⟩ := List.mem_map.1 member
  exact ⟨rfl, (List.mem_filter.1 kept).1⟩

/-- An event that is no remark comes out if and only if it goes in. -/
theorem exists_mem_sent_iff {e : Event} (shown : e.isDiagnostic = false) :
    (∃ e' ∈ emitter.sent events, e'.event = e) ↔ e ∈ events := by
  constructor
  · rintro ⟨e', member, rfl⟩
    exact (of_mem_sent member).2
  · intro member
    have kept : emitter.sends e = true := by
      rw [sends, shown]
      exact Bool.or_true _
    exact ⟨emitter.tag e, List.mem_map_of_mem (List.mem_filter.2 ⟨member, kept⟩), rfl⟩

theorem sent_eq_map (shown : ∀ e ∈ events, e.isDiagnostic = false) :
    emitter.sent events = events.map emitter.tag := by
  have kept : ∀ e ∈ events, emitter.sends e = true := by
    intro e member
    rw [sends, shown e member]
    exact Bool.or_true _
  rw [sent, List.filter_eq_self.2 kept]

/-- Remarks apart, the same comes out of every emitter. -/
theorem filter_sent (emitter : Emitter) (events : List Event) :
    (emitter.sent events).filter (fun e => !e.event.isDiagnostic) =
      (events.filter fun e => !e.isDiagnostic).map emitter.tag := by
  rw [sent, List.filter_map, List.filter_filter]
  congr 2
  funext e
  show (!e.isDiagnostic && (emitter.diagnostics || !e.isDiagnostic)) = !e.isDiagnostic
  cases emitter.diagnostics <;> cases e.isDiagnostic <;> rfl

theorem sent_of_quiet (quiet : emitter.diagnostics = false) (events : List Event) :
    emitter.sent events = (events.filter fun e => !e.isDiagnostic).map emitter.tag := by
  have sends : emitter.sends = fun e => !e.isDiagnostic := by
    funext e
    rw [Emitter.sends, quiet, Bool.false_or]
  rw [sent, sends]

end RecipeEngine.Emitter
