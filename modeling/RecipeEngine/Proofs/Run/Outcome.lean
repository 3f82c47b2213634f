import RecipeEngine.Proofs.Run.Feed
import RecipeEngine.Proofs.Run.Program

/-!
# How a run ends

A run ends with a value exactly if its recipe is well-formed and the value comes out of feeding.
Otherwise it fails at the first application that is refused, or else with the defect behind the
longest well-formed prefix.
-/

namespace RecipeEngine.Execution

open Program

theorem isUsable_of_ready {r : Registry} (ready : r.isReady = true) (filled : r.isEmpty = false) :
    r.isUsable = true := by
  rw [Registry.isUsable, ready, filled]
  rfl

theorem result_ofBlocks_eq_ok_iff {r : Registry} (usable : r.isUsable = true) {bs : List Block}
    {v w : Json} :
    (ofProgram r (ofBlocks bs) v).result = .ok w ↔
      feed r (applicationSequence bs) v = some w := by
  rw [ofProgram_ofBlocks usable, result_remark_bind, result_ofTasks_eq_ok_iff]
  rfl

/-- A function that puts a value into an array, but refuses to do so twice. -/
def boxOnce : Function
  | .array _ => .failure ⟨"boxed twice"⟩
  | v => .value (.array [v])

def boxing : Registry := (Registry.empty.register "box" boxOnce).markReady

/-! ## Success -/

/-- A run ends with a value if and only if its recipe is well-formed and the value comes out of
feeding the initial value through the application sequence. -/
theorem result_eq_ok_iff {r : Registry} (ready : r.isReady = true) (filled : r.isEmpty = false)
    (p : Program) (v w : Json) :
    (ofProgram r p v).result = .ok w ↔
      ∃ bs, p = ofBlocks bs ∧ feed r (applicationSequence bs) v = some w := by
  have usable := isUsable_of_ready ready filled
  constructor
  · intro ends
    obtain ⟨bs, rest, rfl, stuck⟩ := exists_ofBlocks_append p
    rcases ofProgram_cases usable bs stuck v with ⟨rfl, run⟩ | ⟨e, -, run⟩
    · rw [run, result_remark_bind, result_ofTasks_eq_ok_iff] at ends
      exact ⟨bs, List.append_nil _, ends⟩
    · -- With a defect behind the blocks there is no value.
      rw [run, result_remark_bind, result_bind_eq_ok_iff] at ends
      obtain ⟨u, -, failed⟩ := ends
      cases failed
  · rintro ⟨bs, rfl, fed⟩
    exact (result_ofBlocks_eq_ok_iff usable).2 fed

theorem result_eq_ok_iff_boxing :
    boxing.isReady = true ∧ boxing.isEmpty = false ∧
      (ofProgram boxing [.loopStart "a" 0, .step ⟨"b", "box", 0⟩, .loopEnd "a"] .null).result =
        .ok (.array [.null]) :=
  ⟨rfl, rfl, (result_eq_ok_iff rfl rfl _ _ _).2 ⟨[.loop "a" 0 [⟨"b", "box", 0⟩]], rfl, rfl⟩⟩

/-! ## Failure behind the longest well-formed prefix -/

/-- A run whose recipe goes on behind its longest well-formed prefix, and which gets through that
prefix, fails with the defect there, which is a single one.  Remarks apart, it does what the run of
the prefix does and nothing else. -/
theorem fails_with_defect {r : Registry} (ready : r.isReady = true) (filled : r.isEmpty = false)
    {p : Program} {k : Nat} (longest : p.IsLongestPrefix k) (more : k < p.length) {v w : Json}
    (ends : (ofProgram r (p.take k) v).result = .ok w) :
    ∃ e, (∀ e', Defect p k e' ↔ e' = e) ∧
      (ofProgram r p v).result = .error (.failed e) ∧
      (ofProgram r p v).observed = (ofProgram r (p.take k) v).observed := by
  have usable := isUsable_of_ready ready filled
  obtain ⟨bs, rest, rfl, rfl, stuck⟩ := longest.exists_split
  rw [List.take_left] at ends ⊢
  rw [ofProgram_ofBlocks usable, result_remark_bind] at ends
  rcases ofProgram_cases usable bs stuck v with ⟨rfl, -⟩ | ⟨e, defect, run⟩
  · simp at more
  · have failed : ∀ e', Defect (ofBlocks bs ++ rest) (ofBlocks bs).length e' →
        (ofProgram r (ofBlocks bs ++ rest) v).result = .error (.failed e') := by
      intro e' defect'
      rw [ofProgram_of_defect usable stuck defect', result_remark_bind, (bind_of_ok ends).2]
      rfl
    refine ⟨e, fun e' => ⟨fun defect' => ?_, fun same => same ▸ defect⟩, failed e defect, ?_⟩
    · -- Whatever defect there is, the run fails with it, so there is no second one.
      have same := (failed e' defect').symm.trans (failed e defect)
      simpa using same
    · rw [run, ofProgram_ofBlocks usable, observed_remark_bind, observed_remark_bind, observed,
        (bind_of_ok ends).1, observed]
      simp [fail, halt]

def crossing : Program :=
  [.step ⟨"b", "box", 1⟩, .loopStart "a" 2, .loopStart "b" 2, .loopEnd "a", .loopEnd "b"]

theorem isLongestPrefix_crossing : crossing.IsLongestPrefix 1 := by
  refine (isLongestPrefix_iff [.single ⟨"b", "box", 1⟩] _).2 ?_
  rintro (s | ⟨identifier, iterations, body⟩) rest same
  · simp [Block.instructions] at same
  · cases body <;> simp [Block.instructions] at same

theorem fails_with_defect_crossing :
    boxing.isReady = true ∧ boxing.isEmpty = false ∧ crossing.IsLongestPrefix 1 ∧
      1 < crossing.length ∧ (ofProgram boxing (crossing.take 1) .null).result = .ok (.array [.null]) ∧
      ∃ e, (∀ e', Defect crossing 1 e' ↔ e' = e) ∧
        (ofProgram boxing crossing .null).result = .error (.failed e) ∧
        (ofProgram boxing crossing .null).observed =
          (ofProgram boxing (crossing.take 1) .null).observed :=
  ⟨rfl, rfl, isLongestPrefix_crossing, by decide, rfl,
    fails_with_defect rfl rfl isLongestPrefix_crossing (by decide) rfl⟩

/-! ## Failure within the longest well-formed prefix -/

theorem root_eq_self {e : ExecutionError} (bare : e.source? = none) : e.root = e := by
  cases e <;> first | rfl | cases bare

theorem root_wrap {cause : ExecutionError} (loop : Option Iteration)
    (bare : cause.source? = none) : (Iteration.wrap loop cause).root = cause := by
  cases loop <;> exact root_eq_self bare

/-- However a run fails, at most one iteration of a loop is wrapped around the failure. -/
theorem exists_wrap_of_failed {r : Registry} {p : Program} {v : Json} {e : ExecutionError}
    (failed : (ofProgram r p v).result = .error (.failed e)) :
    ∃ loop cause, cause.source? = none ∧ e = Iteration.wrap loop cause := by
  by_cases usable : r.isUsable = true
  · obtain ⟨bs, rest, rfl, stuck⟩ := exists_ofBlocks_append p
    cases gone : (ofTasks r (plan bs) v).result with
    | error reason =>
      rw [ofProgram_of_halt usable stuck gone, result_remark_bind, gone] at failed
      cases failed
      obtain ⟨a, u, cause, refusal, rfl⟩ := exists_refusal_of_failed gone
      exact ⟨a.loop, cause, refusal.source?_eq_none, rfl⟩
    | ok w =>
      rcases ofProgram_cases usable bs stuck v with ⟨-, run⟩ | ⟨e', defect, run⟩
      · rw [run, result_remark_bind, gone] at failed
        cases failed
      · rw [run, result_remark_bind, (bind_of_ok gone).2] at failed
        cases failed
        exact ⟨none, e, defect.source?_eq_none, rfl⟩
  · rw [ofProgram_of_unusable usable] at failed
    cases failed
    exact ⟨none, _, rfl, rfl⟩

/-- A run fails at the first application of its longest well-formed prefix that is refused: with
that refusal, put into the context of the iteration that the application is part of, and after
applying exactly the functions up to there.  However a run fails, at most one iteration of a loop is
wrapped around its failure. -/
theorem fails_at_first_refusal (r : Registry) (p : Program) (v : Json) :
    (r.isReady = true → r.isEmpty = false →
      ∀ k bs before a after u cause, p.IsLongestPrefix k → p.take k = ofBlocks bs →
        applicationSequence bs = before ++ a :: after → feed r before v = some u →
        a.Refusal r u cause →
          (ofProgram r p v).result = .error (.failed (Iteration.wrap a.loop cause)) ∧
          (Iteration.wrap a.loop cause).root = cause ∧
          (ofProgram r p v).applications = invocations r before v ++ a.invoked r u) ∧
    ∀ e, (ofProgram r p v).result = .error (.failed e) →
      e.root.source? = none ∧
        (e = e.root ∨ ∃ identifier iteration total,
          e = .loopIteration identifier iteration total e.root) := by
  constructor
  · intro ready filled k bs before a after u cause longest prefixed sequence fed refusal
    have usable := isUsable_of_ready ready filled
    obtain ⟨bs', rest, rfl, rfl, stuck⟩ := longest.exists_split
    rw [List.take_left] at prefixed
    -- The reading of the prefix that is given is the one that the run goes by.
    cases ofBlocks_injective prefixed
    obtain ⟨front, back, tasks, rfl⟩ := exists_tasks_of_applications sequence
    obtain ⟨failed, applied⟩ := ofTasks_of_refusal back fed refusal
    rw [← tasks] at failed applied
    rw [ofProgram_of_halt usable stuck failed, result_remark_bind, applications_remark_bind]
    exact ⟨failed, root_wrap a.loop refusal.source?_eq_none, applied⟩
  · intro e failed
    obtain ⟨loop, cause, bare, rfl⟩ := exists_wrap_of_failed failed
    rw [root_wrap loop bare]
    cases loop with
    | none => exact ⟨bare, .inl rfl⟩
    | some i => exact ⟨bare, .inr ⟨_, _, _, rfl⟩⟩

/-- A loop whose second iteration is refused, with a defect behind it. -/
def boxingTwice : Program :=
  [.loopStart "a" 3, .step ⟨"b", "box", 0⟩, .loopEnd "a", .loopEnd "a"]

theorem isLongestPrefix_boxingTwice : boxingTwice.IsLongestPrefix 3 := by
  refine (isLongestPrefix_iff [.loop "a" 3 [⟨"b", "box", 0⟩]] _).2 ?_
  rintro (s | ⟨identifier, iterations, body⟩) rest same
  · simp [Block.instructions] at same
  · simp [Block.instructions] at same

theorem fails_at_first_refusal_boxing :
    boxing.isReady = true ∧ boxing.isEmpty = false ∧
      (ofProgram boxing boxingTwice .null).result =
        .error (.failed (.loopIteration "a" 2 3 (.operationFailed "b" 1 1 "boxed twice"))) ∧
      (ofProgram boxing boxingTwice .null).applications =
        [("box", .null), ("box", .array [.null])] := by
  have refusal : Application.Refusal boxing ⟨⟨"b", "box", 0⟩, 1, some ⟨"a", 2, 3⟩⟩ (.array [.null])
      (.operationFailed "b" 1 1 "boxed twice") :=
    .refused (f := boxOnce) rfl rfl
  have first := (fails_at_first_refusal boxing boxingTwice .null).1 rfl rfl 3
    [.loop "a" 3 [⟨"b", "box", 0⟩]] [⟨⟨"b", "box", 0⟩, 1, some ⟨"a", 1, 3⟩⟩]
    ⟨⟨"b", "box", 0⟩, 1, some ⟨"a", 2, 3⟩⟩ [⟨⟨"b", "box", 0⟩, 1, some ⟨"a", 3, 3⟩⟩]
    (.array [.null]) (.operationFailed "b" 1 1 "boxed twice") isLongestPrefix_boxingTwice rfl rfl rfl
    refusal
  exact ⟨rfl, rfl, first.1, first.2.2⟩

end RecipeEngine.Execution
