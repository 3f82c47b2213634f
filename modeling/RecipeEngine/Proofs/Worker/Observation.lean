import RecipeEngine.Proofs.Run.Outcome
import RecipeEngine.Proofs.Worker.Live

/-!
# Observation has no influence

Who observes a run or a session, and whether anybody does, makes no difference to what is done and
how it ends.  Whoever asks for remarks gets them in between the same events that others get
(`Live.observer_has_no_influence`).  Two live runs of one recipe play the same execution, so what
they send is told apart by their emitters only; for sessions, turning remarks off changes nothing
else about the worker (`Worker.receive_silenced`).
-/

namespace RecipeEngine

/-! ## Emitters -/

/-- What comes out of two emitters, the second of which keeps remarks back, is related by whatever
relates the single events. -/
theorem Emitter.filter_sent_rel {loud quiet : Emitter} (silent : quiet.diagnostics = false)
    {m m' : Measurement} {relates : TaggedEvent → TaggedEvent → Prop}
    (tagged : ∀ e e', Event.SameApart m m' e e' → relates (loud.tag e) (quiet.tag e'))
    {events events' : List Event} (same : List.Forall₂ (Event.SameApart m m') events events') :
    List.Forall₂ relates ((loud.sent events).filter fun e => !e.event.isDiagnostic)
      (quiet.sent events') := by
  rw [filter_sent, sent_of_quiet silent]
  refine List.rel_map (fun e e' related => tagged e e' related) (List.rel_filter ?_ same)
  intro e e' related
  simp only [related.isDiagnostic_eq]

namespace Execution

/-- A run reports its end unless a function breaks down. -/
theorem reported_cases (x : Execution Json) :
    (∀ m, x.reported m = x) ∨ ∀ m, x.reported m = ⟨x.withReport m, x.result⟩ := by
  obtain ⟨trace, result⟩ := x
  cases result with
  | ok v => exact .inr fun _ => rfl
  | error reason =>
    cases reason with
    | failed e => exact .inr fun _ => rfl
    | brokeDown words => exact .inl fun _ => rfl

theorem reported_sameApart (m m' : Measurement) (x : Execution Json) :
    List.Forall₂ (Event.SameApart m m') (x.reported m).events (x.reported m').events := by
  obtain silent | reports := x.reported_cases
  · rw [silent, silent]
    exact sameApart_refl m m' x.events
  · rw [reports, reports, events_withReport, events_withReport]
    exact runEvents_sameApart m m' x

theorem applications_reported (m : Measurement) (x : Execution Json) :
    (x.reported m).applications = x.applications := by
  obtain silent | reports := x.reported_cases
  · rw [silent]
  · rw [reports, applications_withReport]

theorem result_reported (m : Measurement) (x : Execution Json) :
    (x.reported m).result = x.result := by
  obtain silent | reports := x.reported_cases
  · rw [silent]
  · rw [reports]

end Execution

/-! ## Workers -/

namespace Worker

/-- The worker with remarks turned off. -/
def silenced (w : Worker) : Worker := { w with diagnostics := false }

theorem bringUp_silenced (w : Worker) :
    w.silenced.bringUp = (w.bringUp.1.silenced, w.bringUp.2) := by
  have held : w.silenced.registry = w.registry := rfl
  have attempt : BringUp.attempt w.silenced.module w.silenced.limit w.silenced.starts =
      BringUp.attempt w.module w.limit w.starts := rfl
  simp only [bringUp, held, attempt]
  cases w.registry with
  | some r => rfl
  | none => cases BringUp.attempt w.module w.limit w.starts <;> rfl

theorem receive_silenced (w : Worker) (message : HostMessage) :
    w.silenced.receive message =
      { w.receive message with worker := (w.receive message).worker.silenced } := by
  cases message with
  | invalid reason correlation => rfl
  | prepare => simp only [receive, receivePrepare, bringUp_silenced]
  | run request =>
    have held : w.silenced.registry = w.registry := rfl
    simp only [receive, receiveRun, held, bringUp_silenced]
    cases w.registry <;> rfl

theorem applications_silenced (w : Worker) (messages : List HostMessage) :
    w.silenced.applications messages = w.applications messages := by
  induction messages generalizing w with
  | nil => rfl
  | cons message rest ih =>
    simp only [applications, receive_silenced, ih]
    rfl

theorem block_silenced (w : Worker) (message : HostMessage) (m m' : Measurement) :
    List.Forall₂ (TaggedEvent.SameApart m m')
      (((w.receive message).block m).filter fun e => !e.event.isDiagnostic)
      ((w.silenced.receive message).block m') := by
  rw [receive_silenced, Receipt.block, Receipt.block]
  exact Emitter.filter_sent_rel rfl (fun e e' related => ⟨rfl, related⟩)
    ((w.receive message).eventsWith_sameApart m m' _)

theorem serve_silenced (measure measure' : Nat → Measurement) (w : Worker)
    (messages : List HostMessage) (place : Nat) :
    (w.silenced.serve measure' messages place).outcome =
        (w.serve measure messages place).outcome.map silenced ∧
      List.Forall₂
        (fun e e' => ∃ place, TaggedEvent.SameApart (measure place) (measure' place) e e')
        ((w.serve measure messages place).blocks.flatten.filter fun e => !e.event.isDiagnostic)
        (w.silenced.serve measure' messages place).blocks.flatten := by
  induction messages generalizing w place with
  | nil => exact ⟨rfl, .nil⟩
  | cons message rest ih =>
    have first := (w.block_silenced message (measure place) (measure' place)).imp
      fun e e' related => Exists.intro (p := fun place =>
        TaggedEvent.SameApart (measure place) (measure' place) e e') place related
    simp only [serve]
    rw [receive_silenced] at first ⊢
    cases (w.receive message).breakdown with
    | some words =>
      refine ⟨rfl, ?_⟩
      simpa using first
    | none =>
      obtain ⟨outcome, later⟩ := ih (w.receive message).worker (place + 1)
      refine ⟨outcome, ?_⟩
      simp only [List.flatten_cons, List.filter_append]
      exact List.rel_append first later

end Worker

namespace Live

/-! ## Runs and sessions -/

/-- Whoever observes a run, and whether or not there is a stream, the run ends in the same way after
applying the same functions to the same values.  So does a session, whether or not its worker sends
remarks.  Remarks apart, what is sent is the same but for what is measured; this is a matter of the
whole stream of events, however the run or the session ends. -/
theorem observer_has_no_influence :
    (∀ (o o' : Observer) (m m' : Measurement) (r : Registry) (p : Program) (v : Json)
        (outside outside' : Outside),
      let x := Execution.ofProgram r p v
      let sent := o.emitter.sent (x.reported m).events
      let sent' := o'.emitter.sent (x.reported m').events
      (run o m r p v outside).1 = (run o' m' r p v outside').1 ∧
        outside.Gains (run o m r p v outside).2 x.applications sent ∧
        outside'.Gains (run o' m' r p v outside').2 x.applications sent' ∧
        (o'.emitter.diagnostics = false →
          List.Forall₂ (fun e e' => e.event.SameApart m m' e'.event)
            (sent.filter fun e => !e.event.isDiagnostic) sent')) ∧
    ∀ (logs logs' : Bool) (measure measure' : Nat → Measurement) (w : Worker)
        (messages : List HostMessage) (outside outside' : Outside),
      let loud := serve logs measure w messages 0 outside
      let quiet := serve logs' measure' w.silenced messages 0 outside'
      let sent := (w.serve measure messages 0).blocks.flatten
      let sent' := (w.silenced.serve measure' messages 0).blocks.flatten
      quiet.1 = loud.1.map Worker.silenced ∧
        outside.Gains loud.2 (w.applications messages) sent ∧
        outside'.Gains quiet.2 (w.applications messages) sent' ∧
        List.Forall₂
          (fun e e' => ∃ place, TaggedEvent.SameApart (measure place) (measure' place) e e')
          (sent.filter fun e => !e.event.isDiagnostic) sent' := by
  constructor
  · intro o o' m m' r p v outside outside' x sent sent'
    have gains := gains_play o (x.reported m) outside
    have gains' := gains_play o' (x.reported m') outside'
    rw [← run_eq_play, Execution.applications_reported] at gains gains'
    refine ⟨?_, gains, gains', fun silent => ?_⟩
    · simp only [run_eq_play, play, Execution.result_reported]
    · exact Emitter.filter_sent_rel silent (fun e e' related => related)
        (Execution.reported_sameApart m m' x)
  · intro logs logs' measure measure' w messages outside outside' loud quiet sent sent'
    obtain ⟨result, gains⟩ := serve_spec logs measure w messages 0 outside
    obtain ⟨result', gains'⟩ := serve_spec logs' measure' w.silenced messages 0 outside'
    obtain ⟨outcome, same⟩ := w.serve_silenced measure measure' messages 0
    rw [Worker.applications_silenced] at gains'
    refine ⟨?_, gains, gains', same⟩
    simp only [loud, quiet, result, result', outcome]

/-- An observer who asks for remarks. -/
def curious : Observer := ⟨⟨some "a", true⟩, true⟩

def indifferent : Observer := ⟨⟨none, false⟩, false⟩

/-- A run that fails in the second iteration of a loop, once observed and once not heard. -/
theorem observer_has_no_influence_boxing :
    indifferent.emitter.diagnostics = false ∧
      (run curious ⟨.ofSeconds 1, "1"⟩ Execution.boxing Execution.boxingTwice .null
          ⟨.create true, []⟩).1 =
        (run indifferent ⟨.ofSeconds 2, "2"⟩ Execution.boxing Execution.boxingTwice .null
          ⟨(Channel.create false).dropStream, []⟩).1 ∧
      (run indifferent ⟨.ofSeconds 2, "2"⟩ Execution.boxing Execution.boxingTwice .null
          ⟨(Channel.create false).dropStream, []⟩).2.applied =
        [("box", .null), ("box", .array [.null])] ∧
      List.Forall₂
        (fun e e' => e.event.SameApart ⟨.ofSeconds 1, "1"⟩ ⟨.ofSeconds 2, "2"⟩ e'.event)
        ((curious.emitter.sent
          ((Execution.ofProgram Execution.boxing Execution.boxingTwice .null).reported
            ⟨.ofSeconds 1, "1"⟩).events).filter fun e => !e.event.isDiagnostic)
        (indifferent.emitter.sent
          ((Execution.ofProgram Execution.boxing Execution.boxingTwice .null).reported
            ⟨.ofSeconds 2, "2"⟩).events) := by
  obtain ⟨result, -, gains, same⟩ :=
    observer_has_no_influence.1 curious indifferent ⟨.ofSeconds 1, "1"⟩ ⟨.ofSeconds 2, "2"⟩
      Execution.boxing Execution.boxingTwice .null ⟨.create true, []⟩
      ⟨(Channel.create false).dropStream, []⟩
  exact ⟨rfl, result, gains.applied, same rfl⟩

end Live

end RecipeEngine
