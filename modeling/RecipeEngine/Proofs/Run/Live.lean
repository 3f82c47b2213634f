import RecipeEngine.Message.Channel
import RecipeEngine.Proofs.Run.Execution
import RecipeEngine.Run.Report

/-!
# Runs as they happen

An `Execution` says what is done; a live run does it.  It sends its events into a channel when it
comes to them, and before a remark it looks whether anybody wants to know.  Live runs are written
instruction by instruction like the executions that they are compared with.  What is left behind is
what the trace of the execution says, whoever the observer is (`ofProgram_eq_play`, `run_eq_play`,
`perform_eq_play`).
-/

namespace RecipeEngine

/-- What a live run acts on. -/
structure Outside where
  channel : Channel
  /-- The functions that have been applied, with their inputs. -/
  applied : List (String × Json)

/-- Who a live run tells its events and remarks. -/
structure Observer where
  emitter : Emitter
  /-- Whether remarks are logged. -/
  logs : Bool

/-- A computation that acts on the outside as it goes and may halt. -/
def Live (α : Type) : Type := Outside → Except Halt α × Outside

namespace Live

variable {α β : Type}

protected def pure (a : α) : Live α := fun outside => (.ok a, outside)

protected def bind (x : Live α) (f : α → Live β) : Live β := fun outside =>
  match x outside with
  | (.ok a, outside) => f a outside
  | (.error reason, outside) => (.error reason, outside)

instance : Monad Live where
  pure := Live.pure
  bind := Live.bind

theorem id_map_live (x : Live α) : id <$> x = x := by
  funext outside
  show Live.bind x (fun a => Live.pure a) outside = x outside
  rw [Live.bind]
  split <;> simp_all [Live.pure]

theorem bind_assoc_live {γ : Type} (x : Live α) (f : α → Live β) (g : β → Live γ) :
    x >>= f >>= g = x >>= fun a => f a >>= g := by
  funext outside
  show Live.bind (Live.bind x f) g outside = Live.bind x (fun a => Live.bind (f a) g) outside
  simp only [Live.bind]
  split <;> split <;> simp_all

instance : LawfulMonad Live :=
  LawfulMonad.mk' Live id_map_live (fun _ _ => rfl) bind_assoc_live

theorem bind_of_ok {x : Live α} {outside after : Outside} {a : α}
    (ends : x outside = (.ok a, after)) (f : α → Live β) : (x >>= f) outside = f a after := by
  show Live.bind x f outside = _
  rw [Live.bind, ends]

theorem bind_of_error {x : Live α} {outside after : Outside} {reason : Halt}
    (halts : x outside = (.error reason, after)) (f : α → Live β) :
    (x >>= f) outside = (.error reason, after) := by
  show Live.bind x f outside = _
  rw [Live.bind, halts]

def halt (reason : Halt) : Live α := fun outside => (.error reason, outside)

def fail (e : ExecutionError) : Live α := halt (.failed e)

def ofExcept : Except ExecutionError α → Live α
  | .ok a => pure a
  | .error e => fail e

def inContext (context : ExecutionError → ExecutionError) (x : Live α) : Live α := fun outside =>
  match x outside with
  | (.error (.failed e), outside) => (.error (.failed (context e)), outside)
  | other => other

/-- Goes on with a failure, but not after a breakdown. -/
def attempt (x : Live α) : Live (Except ExecutionError α) := fun outside =>
  match x outside with
  | (.ok a, outside) => (.ok (.ok a), outside)
  | (.error (.failed e), outside) => (.ok (.error e), outside)
  | (.error (.brokeDown words), outside) => (.error (.brokeDown words), outside)

/-- Goes on after a halt. -/
def recover (x : Live α) (f : Halt → Live α) : Live α := fun outside =>
  match x outside with
  | (.ok a, outside) => (.ok a, outside)
  | (.error reason, outside) => f reason outside

/-! ## Telling the observer -/

/-- Sends an event; the answer is whether there is a stream to take it. -/
def emit (o : Observer) (e : Event) : Live Bool := fun outside =>
  let (heard, channel) := outside.channel.send (o.emitter.tag e)
  (.ok heard, { outside with channel := channel })

def remark (o : Observer) (words : String) : Live Bool :=
  if o.emitter.diagnostics then emit o (.diagnostic words) else pure true

/-- A remark that is put into words only if it is sent or logged. -/
def remarkLazily (o : Observer) (words : Unit → String) : Live Bool :=
  if o.emitter.diagnostics || o.logs then remark o (words ()) else pure true

/-! ## Executing a recipe -/

def apply (key : String) (f : Function) (refused : FunctionFailure → ExecutionError)
    (input : Json) : Live Json := fun outside =>
  let outside := { outside with applied := outside.applied ++ [(key, input)] }
  match f input with
  | .value v => (.ok v, outside)
  | .failure failure => (.error (.failed (refused failure)), outside)
  | .breakdown words => (.error (.brokeDown words), outside)

def repeatStep (o : Observer) (f : Function) (s : Step) (done : Nat) : Nat → Json → Live Json
  | 0, v => pure v
  | left + 1, v => do
      let _ ← remarkLazily o fun _ => Execution.repetitionRemark s (done + 1)
      let refused := fun failure =>
        ExecutionError.operationFailed s.name (done + 1) s.repetitions failure.error
      let v ← apply s.functionKey f refused v
      repeatStep o f s (done + 1) left v

def ofStep (o : Observer) (r : Registry) (s : Step) (v : Json) : Live Json :=
  match r.lookup s.functionKey with
  | none => fail (.unknownFunction s.name s.functionKey)
  | some f => repeatStep o f s 0 s.repetitions v

def ofSteps (o : Observer) (r : Registry) : List Step → Json → Live Json
  | [], v => pure v
  | s :: rest, v => do
      let v ← ofStep o r s v
      ofSteps o r rest v

def repeatBody (o : Observer) (r : Registry) (identifier : String) (body : List Step)
    (total done : Nat) : Nat → Json → Live Json
  | 0, v => pure v
  | left + 1, v => do
      let iteration := done + 1
      let _ ← emit o
        (.progress (some identifier) (UInt32.ofNat iteration) (UInt32.ofNat total))
      let v ← (ofSteps o r body v).inContext (.loopIteration identifier iteration total)
      repeatBody o r identifier body total iteration left v

def ofLoop (o : Observer) (r : Registry) (p : Program) (identifier : String) (iterations : UInt32)
    (s : RunState) : Live RunState :=
  match p.findLoopEnd s.position identifier with
  | none => fail (.unmatchedLoop identifier s.position)
  | some last => do
      -- The body is checked before its first progress is told.
      let body ← ofExcept
        (Execution.bodySteps identifier ((p.take last).drop (s.position + 1)))
      let total := times iterations
      let v ← repeatBody o r identifier body total 0 total s.value
      pure ((s.withValue v).jump (last + 1))

def ofInstruction (o : Observer) (r : Registry) (p : Program) (s : RunState) :
    Instruction → Live RunState
  | .step st => do
      let v ← ofStep o r st s.value
      pure (s.withValue v).advance
  | .loopStart identifier iterations => ofLoop o r p identifier iterations s
  | .loopEnd identifier => fail (.orphanLoopEnd identifier s.position)
  | .unsupported => fail (.unsupportedInstruction s.position)

def runFrom (o : Observer) (r : Registry) (p : Program) : Nat → RunState → Live RunState
  | 0, s => pure s
  | rounds + 1, s =>
      match p[s.position]? with
      | none => pure s
      | some i => do
          let s ← ofInstruction o r p s i
          runFrom o r p rounds s

def ofProgram (o : Observer) (r : Registry) (p : Program) (v : Json) : Live Json :=
  if r.isUsable then do
    let _ ← remarkLazily o fun _ => Execution.startRemark p
    let s ← runFrom o r p p.length (.start v)
    pure s.value
  else fail .registryNotReady

/-! ## Reporting a run -/

/-- Reports how a run ends, unless a function breaks down. -/
def report (o : Observer) (m : Measurement) (x : Live Json) : Live Json := do
  let result ← attempt x
  let _ ← match result with
    | .ok _ => remark o "Recipe processing completed"
    | .error e => remarkLazily o fun _ => "Recipe processing failed: " ++ e.message
  let _ ← match result with
    | .ok v => emit o (.finalResult v)
    | .error e => emit o (.executionFailed e.message)
  let _ ← emit o (.timing m.elapsed.milliseconds)
  let _ ← emit o .reset
  ofExcept result

/-- Reports a breakdown, of which nothing has been reported yet. -/
def reportBreakdown (o : Observer) (m : Measurement) (x : Live Json) : Live Unit :=
  recover (do let _ ← x; pure ()) fun
    | .failed _ => pure ()
    | .brokeDown words => do
        let _ ← emit o (.executionFailed (abortedMessage m.task words))
        let _ ← emit o (.timing m.elapsed.milliseconds)
        let _ ← emit o .reset
        pure ()

/-- Runs a recipe and reports how it ends, unless a function breaks down. -/
def run (o : Observer) (m : Measurement) (r : Registry) (p : Program) (v : Json) : Live Json :=
  report o m (ofProgram o r p v)

/-- Runs a recipe and reports how it ends, a breakdown included. -/
def perform (o : Observer) (m : Measurement) (r : Registry) (p : Program) (v : Json) :
    Live Unit := reportBreakdown o m (run o m r p v)

end Live

/-! ## Playing a trace -/

/-- What an action leaves behind. -/
def Outside.after (outside : Outside) (o : Observer) : Action → Outside
  | .apply key input => { outside with applied := outside.applied ++ [(key, input)] }
  | .send e => { outside with channel := (outside.channel.emit o.emitter e).2 }

def Outside.afterAll (outside : Outside) (o : Observer) (trace : List Action) : Outside :=
  trace.foldl (fun outside action => outside.after o action) outside

theorem Outside.afterAll_append (outside : Outside) (o : Observer) (first second : List Action) :
    outside.afterAll o (first ++ second) = (outside.afterAll o first).afterAll o second :=
  List.foldl_append

namespace Live

variable {α β : Type} {o : Observer}

/-- Does what an execution says. -/
def play (o : Observer) (x : Execution α) : Live α := fun outside =>
  (x.result, outside.afterAll o x.trace)

theorem play_pure (a : α) : play o (pure a) = pure a := rfl

theorem play_ofExcept (result : Except ExecutionError α) :
    play o (Execution.ofExcept result) = ofExcept result := by
  cases result <;> rfl

theorem play_bind (x : Execution α) (f : α → Execution β) :
    play o (x >>= f) = play o x >>= fun a => play o (f a) := by
  obtain ⟨trace, result⟩ := x
  funext outside
  cases result with
  | ok a => exact Prod.ext rfl (outside.afterAll_append o trace (f a).trace)
  | error reason => rfl

theorem play_inContext (context : ExecutionError → ExecutionError) (x : Execution α) :
    play o (x.inContext context) = (play o x).inContext context := by
  obtain ⟨trace, result⟩ := x
  cases result with
  | ok a => rfl
  | error reason => cases reason <;> rfl

theorem emit_bind {e : Event} (shown : e.isDiagnostic = false) (x : Live β) (outside : Outside) :
    (emit o e >>= fun _ => x) outside = x (outside.after o (.send e)) := by
  have sends : o.emitter.sends e = true := by
    rw [Emitter.sends, shown]
    exact Bool.or_true _
  rw [Outside.after, Channel.emit, if_pos sends]
  rfl

theorem remark_bind (words : String) (x : Live β) (outside : Outside) :
    (remark o words >>= fun _ => x) outside = x (outside.after o (.send (.diagnostic words))) := by
  -- The run asks for the flag itself; playing leaves it to the emitter.
  have sends : o.emitter.sends (.diagnostic words) = o.emitter.diagnostics := Bool.or_false _
  rw [Outside.after, Channel.emit, remark, sends]
  by_cases asked : o.emitter.diagnostics = true
  · rw [if_pos asked, if_pos asked]
    rfl
  · rw [if_neg asked, if_neg asked]
    rfl

/-- Whether a remark that is not sent is put into words makes no difference. -/
theorem remarkLazily_eq_remark (o : Observer) (words : Unit → String) :
    remarkLazily o words = remark o (words ()) := by
  rw [remarkLazily, remark]
  cases o.emitter.diagnostics <;> simp

theorem play_send_bind {e : Event} (shown : e.isDiagnostic = false) (f : Unit → Execution β) :
    play o (Execution.send e >>= f) = emit o e >>= fun _ => play o (f ()) := by
  rw [play_bind]
  funext outside
  exact (emit_bind shown (play o (f ())) outside).symm

theorem play_remark_bind (words : String) (f : Unit → Execution β) :
    play o (Execution.remark words >>= f) = remark o words >>= fun _ => play o (f ()) := by
  rw [play_bind]
  funext outside
  exact (remark_bind words (play o (f ())) outside).symm

theorem play_apply (key : String) (f : Function) (refused : FunctionFailure → ExecutionError)
    (v : Json) : play o (Execution.apply key f refused v) = apply key f refused v := by
  funext outside
  rw [Execution.apply, play_bind, apply]
  cases f v <;> rfl

/-! ## Live runs play their executions

One lemma for each function, by its recursion.  Since playing commutes with `bind` and with
contexts, only what is told to the observer has to be looked at. -/

theorem repeatStep_eq_play (o : Observer) (f : Function) (s : Step) (done left : Nat) (v : Json) :
    repeatStep o f s done left v = play o (Execution.repeatStep f s done left v) := by
  induction left generalizing done v with
  | zero => rfl
  | succ left ih =>
    simp only [repeatStep, Execution.repeatStep, play_remark_bind, remarkLazily_eq_remark]
    simp only [play_bind, play_apply, ih]

theorem ofStep_eq_play (o : Observer) (r : Registry) (s : Step) (v : Json) :
    ofStep o r s v = play o (Execution.ofStep r s v) := by
  rw [ofStep, Execution.ofStep]
  cases r.lookup s.functionKey with
  | none => rfl
  | some f => exact repeatStep_eq_play o f s 0 s.repetitions v

theorem ofSteps_eq_play (o : Observer) (r : Registry) (body : List Step) (v : Json) :
    ofSteps o r body v = play o (Execution.ofSteps r body v) := by
  induction body generalizing v with
  | nil => rfl
  | cons s body ih => simp only [ofSteps, Execution.ofSteps, play_bind, ofStep_eq_play, ih]

theorem repeatBody_eq_play (o : Observer) (r : Registry) (identifier : String) (body : List Step)
    (total done left : Nat) (v : Json) :
    repeatBody o r identifier body total done left v =
      play o (Execution.repeatBody r identifier body total done left v) := by
  induction left generalizing done v with
  | zero => rfl
  | succ left ih =>
    have shown : (Event.progress (some identifier) (UInt32.ofNat (done + 1))
        (UInt32.ofNat total)).isDiagnostic = false := rfl
    simp only [repeatBody, Execution.repeatBody, play_send_bind shown]
    simp only [play_bind, play_inContext, ofSteps_eq_play, ih]

theorem ofInstruction_eq_play (o : Observer) (r : Registry) (p : Program) (s : RunState)
    (i : Instruction) : ofInstruction o r p s i = play o (Execution.ofInstruction r p s i) := by
  cases i with
  | step st =>
    simp only [ofInstruction, Execution.ofInstruction, play_bind, play_pure, ofStep_eq_play]
  | loopEnd identifier => rfl
  | unsupported => rfl
  | loopStart identifier iterations =>
    simp only [ofInstruction, Execution.ofInstruction, ofLoop, Execution.ofLoop]
    cases p.findLoopEnd s.position identifier with
    | none => rfl
    | some last => simp only [play_bind, play_pure, play_ofExcept, repeatBody_eq_play]

theorem runFrom_eq_play (o : Observer) (r : Registry) (p : Program) (rounds : Nat) (s : RunState) :
    runFrom o r p rounds s = play o (Execution.runFrom r p rounds s) := by
  induction rounds generalizing s with
  | zero => rfl
  | succ rounds ih =>
    rw [runFrom, Execution.runFrom]
    cases p[s.position]? with
    | none => rfl
    | some i => simp only [play_bind, ofInstruction_eq_play, ih]

theorem ofProgram_eq_play (o : Observer) (r : Registry) (p : Program) (v : Json) :
    ofProgram o r p v = play o (Execution.ofProgram r p v) := by
  rw [ofProgram, Execution.ofProgram]
  by_cases usable : r.isUsable = true
  · rw [if_pos usable, if_pos usable]
    simp only [play_remark_bind, remarkLazily_eq_remark]
    simp only [play_bind, play_pure, runFrom_eq_play]
  · rw [if_neg usable, if_neg usable]
    rfl

end Live

/-! ## Reports -/

/-- The trace of an execution, and the sending of the events that report its end. -/
def Execution.withReport (m : Measurement) (x : Execution Json) : List Action :=
  x.trace ++ (outcomeEvents m x.result ++ closingEvents m).map .send

namespace Execution

variable {α : Type}

theorem events_append (first second : List Action) (result : Except Halt α) :
    (Execution.mk (first ++ second) result).events =
      (Execution.mk first result).events ++ (Execution.mk second result).events :=
  List.filterMap_append

theorem applications_append (first second : List Action) (result : Except Halt α) :
    (Execution.mk (first ++ second) result).applications =
      (Execution.mk first result).applications ++ (Execution.mk second result).applications :=
  List.filterMap_append

theorem events_sends (events : List Event) (result : Except Halt α) :
    (Execution.mk (events.map .send) result).events = events := by
  rw [Execution.events, List.filterMap_map]
  exact List.filterMap_some

theorem applications_sends (events : List Event) (result : Except Halt α) :
    (Execution.mk (events.map .send) result).applications = [] := by
  rw [applications, List.filterMap_map]
  exact List.filterMap_eq_nil_iff.2 fun _ _ => rfl

theorem events_withReport (m : Measurement) (x : Execution Json) (result : Except Halt α) :
    (Execution.mk (x.withReport m) result).events = runEvents m x := by
  rw [withReport, events_append, events_sends, ← List.append_assoc]
  rfl

theorem applications_withReport (m : Measurement) (x : Execution Json)
    (result : Except Halt α) :
    (Execution.mk (x.withReport m) result).applications = x.applications := by
  rw [withReport, applications_append, applications_sends, List.append_nil]
  rfl

end Execution

/-- An execution that reports its end unless a function breaks down. -/
def Execution.reported (m : Measurement) (x : Execution Json) : Execution Json :=
  match x.result with
  | .error (.brokeDown _) => x
  | result => ⟨x.withReport m, result⟩

namespace Live

variable {α : Type}

/-- A terminal event, the time and the reset. -/
theorem emit_closing (o : Observer) {e : Event} (shown : e.isDiagnostic = false) (m : Measurement)
    (x : Live α) (outside : Outside) :
    (emit o e >>= fun _ => emit o (.timing m.elapsed.milliseconds) >>= fun _ =>
        emit o .reset >>= fun _ => x) outside =
      x (outside.afterAll o ((e :: closingEvents m).map .send)) := by
  have timing : (Event.timing m.elapsed.milliseconds).isDiagnostic = false := rfl
  rw [emit_bind shown, emit_bind timing, emit_bind (e := .reset) rfl]
  rfl

theorem report_play (o : Observer) (m : Measurement) (x : Execution Json) :
    report o m (play o x) = play o (x.reported m) := by
  obtain ⟨trace, result⟩ := x
  funext outside
  cases result with
  | ok v =>
    have closed := emit_closing o (e := .finalResult v) rfl m (pure v)
    show (remark o _ >>= fun _ => emit o _ >>= fun _ => emit o _ >>= fun _ => emit o _ >>= fun _ =>
      pure v) (outside.afterAll o trace) = _
    rw [remark_bind, closed]
    exact Prod.ext rfl (outside.afterAll_append o trace
      ((outcomeEvents m (.ok v) ++ closingEvents m).map .send)).symm
  | error reason =>
    cases reason with
    | failed e =>
      have closed := emit_closing o (e := .executionFailed e.message) rfl m (fail e : Live Json)
      show (remarkLazily o _ >>= fun _ => emit o _ >>= fun _ => emit o _ >>= fun _ =>
        emit o _ >>= fun _ => fail e) (outside.afterAll o trace) = _
      rw [remarkLazily_eq_remark, remark_bind, closed]
      exact Prod.ext rfl (outside.afterAll_append o trace
        ((outcomeEvents m (.error (.failed e)) ++ closingEvents m).map .send)).symm
    | brokeDown words => rfl

theorem reportBreakdown_play (o : Observer) (m : Measurement) (x : Execution Json) :
    reportBreakdown o m (play o (x.reported m)) = play o ⟨x.withReport m, .ok ()⟩ := by
  obtain ⟨trace, result⟩ := x
  funext outside
  cases result with
  | ok v => rfl
  | error reason =>
    cases reason with
    | failed e => rfl
    | brokeDown words =>
      have closed := emit_closing o (e := .executionFailed (abortedMessage m.task words)) rfl m
        (pure ())
      show (emit o _ >>= fun _ => emit o _ >>= fun _ => emit o _ >>= fun _ => pure ())
        (outside.afterAll o trace) = _
      rw [closed]
      exact Prod.ext rfl (outside.afterAll_append o trace
        ((outcomeEvents m (.error (.brokeDown words)) ++ closingEvents m).map .send)).symm

theorem run_eq_play (o : Observer) (m : Measurement) (r : Registry) (p : Program) (v : Json) :
    run o m r p v = play o ((Execution.ofProgram r p v).reported m) := by
  rw [run, ofProgram_eq_play, report_play]

theorem perform_eq_play (o : Observer) (m : Measurement) (r : Registry) (p : Program) (v : Json) :
    perform o m r p v = play o ⟨(Execution.ofProgram r p v).withReport m, .ok ()⟩ := by
  rw [perform, run_eq_play, reportBreakdown_play]

end Live

/-! ## What is left behind -/

/-- What is `after` once functions have been applied and events have been sent.  A stream that is
there gets the events; without a stream they are lost. -/
structure Outside.Gains (before after : Outside) (applied : List (String × Json))
    (sent : List TaggedEvent) : Prop where
  applied : after.applied = before.applied ++ applied
  hasStream : after.channel.hasStream = before.channel.hasStream
  queued : before.channel.hasStream = true → after.channel.queue = before.channel.queue ++ sent
  lost : before.channel.hasStream = false → after.channel = before.channel

namespace Outside.Gains

variable {before between after : Outside}

theorem refl (outside : Outside) : outside.Gains outside [] [] :=
  ⟨(List.append_nil _).symm, rfl, fun _ => (List.append_nil _).symm, fun _ => rfl⟩

theorem trans {applied applied' : List (String × Json)} {sent sent' : List TaggedEvent}
    (first : before.Gains between applied sent) (second : between.Gains after applied' sent') :
    before.Gains after (applied ++ applied') (sent ++ sent') where
  applied := by rw [second.applied, first.applied, List.append_assoc]
  hasStream := second.hasStream.trans first.hasStream
  queued listening := by
    rw [second.queued (first.hasStream.trans listening), first.queued listening,
      List.append_assoc]
  lost deaf := (second.lost (first.hasStream.trans deaf)).trans (first.lost deaf)

end Outside.Gains

theorem Outside.gains_after (outside : Outside) (o : Observer) (action : Action) :
    outside.Gains (outside.after o action) (Execution.act action).applications
      (o.emitter.sent (Execution.act action).events) := by
  cases action with
  | apply key input => exact ⟨rfl, rfl, fun _ => (List.append_nil _).symm, fun _ => rfl⟩
  | send e =>
    have single : (Execution.act (.send e)).events = [e] := rfl
    refine ⟨(List.append_nil _).symm, ?_, fun listening => ?_, fun deaf => ?_⟩
    · simp only [after, Channel.emit, Channel.send]
      split
      · split <;> rfl
      · rfl
    · exact outside.channel.queue_emitAll o.emitter [e] listening
    · simp only [after, Channel.emit, Channel.send, deaf, Bool.false_eq_true, if_false]
      split <;> rfl

theorem Live.gains_play {α : Type} (o : Observer) (x : Execution α) (outside : Outside) :
    outside.Gains (play o x outside).2 x.applications (o.emitter.sent x.events) := by
  obtain ⟨trace, result⟩ := x
  -- By the trace: each action gains what it says, and the gains add up.
  induction trace generalizing outside with
  | nil => exact .refl outside
  | cons action trace ih =>
    have both := (outside.gains_after o action).trans (ih (outside.after o action))
    rw [← Emitter.sent_append] at both
    cases action <;> exact both

end RecipeEngine
