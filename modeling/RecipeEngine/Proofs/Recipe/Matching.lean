import Mathlib.Data.List.Nodup
import RecipeEngine.Proofs.Recipe.Balance

/-!
# Loop markers matched with a stack

The markers with one identifier can be matched in a single pass over a recipe.  The position of a
start is put on a stack; an end takes the topmost position off, and is ignored if there is none.
The search for the end of a loop, which begins anew at every start and keeps a number only, finds
the end that the pass matches the start with (`findLoopEnd_eq_some_iff_matched`).  That number is
the height of the stack from the start upwards (`waiting_visit`).

Loops with one identifier therefore never cross: of two such loops one lies inside the other or
behind it (`apart_or_nested`).
-/

namespace RecipeEngine

/-- A matcher in the middle of a recipe. -/
structure Matcher where
  /-- The positions of the starts that have no end yet, the last one first. -/
  waiting : List Nat
  /-- The positions of the starts and ends that belong together. -/
  pairs : List (Nat × Nat)

namespace Matcher

/-- Takes note of the instruction at a position. -/
def visit (identifier : String) (position : Nat) (m : Matcher) : Instruction → Matcher
  | .loopStart id _ =>
      if id = identifier then { m with waiting := position :: m.waiting } else m
  | .loopEnd id =>
      if id = identifier then
        match m.waiting with
        | [] => m
        | start :: others => ⟨others, (start, position) :: m.pairs⟩
      else m
  | _ => m

/-- Takes note of one instruction after the other, the first of them being at `position`. -/
def visitAll (identifier : String) (position : Nat) (m : Matcher) : Program → Matcher
  | [] => m
  | i :: p => visitAll identifier (position + 1) (m.visit identifier position i) p

/-- All starts that were noted, with an end or without. -/
def starts (m : Matcher) : List Nat := m.waiting ++ m.pairs.map Prod.fst

/-- In front of `position`, no start is noted twice. -/
structure IsSound (m : Matcher) (position : Nat) : Prop where
  nodup : m.starts.Nodup
  passed : ∀ start ∈ m.starts, start < position

/-! ## One instruction -/

section

variable {identifier : String} {position : Nat} {m : Matcher}

/-- What a matcher does with an instruction: it puts a start on the stack, takes off the topmost
one, or does nothing. -/
theorem visit_cases (identifier : String) (position : Nat) (m : Matcher) (i : Instruction) :
    (i.weight identifier = 1 ∧
      m.visit identifier position i = { m with waiting := position :: m.waiting }) ∨
    (i.weight identifier = -1 ∧ ∃ start others, m.waiting = start :: others ∧
      m.visit identifier position i = ⟨others, (start, position) :: m.pairs⟩) ∨
    (i.weight identifier = -1 ∧ m.waiting = [] ∧ m.visit identifier position i = m) ∨
    (i.weight identifier = 0 ∧ m.visit identifier position i = m) := by
  cases i with
  | step s => exact .inr (.inr (.inr ⟨rfl, rfl⟩))
  | unsupported => exact .inr (.inr (.inr ⟨rfl, rfl⟩))
  | loopStart id count =>
    by_cases same : id = identifier
    · exact .inl ⟨if_pos same, if_pos same⟩
    · exact .inr (.inr (.inr ⟨if_neg same, if_neg same⟩))
  | loopEnd id =>
    by_cases same : id = identifier
    · cases stack : m.waiting with
      | nil => exact .inr (.inr (.inl ⟨if_pos same, rfl, by simp [visit, same, stack]⟩))
      | cons start others =>
        exact .inr (.inl ⟨if_pos same, start, others, rfl, by simp [visit, same, stack]⟩)
    · exact .inr (.inr (.inr ⟨if_neg same, if_neg same⟩))

theorem IsSound.visit (sound : m.IsSound position) (i : Instruction) :
    (m.visit identifier position i).IsSound (position + 1) := by
  have later : ∀ start ∈ m.starts, start < position + 1 := fun start member =>
    Nat.lt_succ_of_lt (sound.passed start member)
  rcases visit_cases identifier position m i with
    ⟨-, visited⟩ | ⟨-, start, others, stack, visited⟩ | ⟨-, -, visited⟩ | ⟨-, visited⟩
  · rw [visited]
    have fresh : position ∉ m.starts := fun member =>
      Nat.lt_irrefl position (sound.passed position member)
    exact ⟨List.nodup_cons.2 ⟨fresh, sound.nodup⟩,
      List.forall_mem_cons.2 ⟨Nat.lt_succ_self position, later⟩⟩
  · -- The start on top is moved to those that have an end.
    have moved : m.starts.Perm (Matcher.starts ⟨others, (start, position) :: m.pairs⟩) := by
      rw [starts, stack]
      exact List.perm_middle.symm
    rw [visited]
    exact ⟨moved.nodup_iff.1 sound.nodup, fun s member => later s (moved.mem_iff.2 member)⟩
  · rw [visited]
    exact ⟨sound.nodup, later⟩
  · rw [visited]
    exact ⟨sound.nodup, later⟩

theorem mem_pairs_visit {pair : Nat × Nat} (member : pair ∈ m.pairs) (i : Instruction) :
    pair ∈ (m.visit identifier position i).pairs := by
  rcases visit_cases identifier position m i with
    ⟨-, visited⟩ | ⟨-, start, others, -, visited⟩ | ⟨-, -, visited⟩ | ⟨-, visited⟩
  · rwa [visited]
  · rw [visited]
    exact List.mem_cons_of_mem _ member
  · rwa [visited]
  · rwa [visited]

/-- A start that waits below `above` others is matched by an instruction that closes as many loops
as are open from that start on. -/
theorem matched_visit {start above : Nat} {i : Instruction}
    (waits : m.waiting[above]? = some start)
    (closes : (above + 1 : Nat) + i.weight identifier = 0) :
    (start, position) ∈ (m.visit identifier position i).pairs := by
  rcases visit_cases identifier position m i with
    ⟨up, -⟩ | ⟨down, top, others, stack, visited⟩ | ⟨-, stack, -⟩ | ⟨level, -⟩
  · omega
  · obtain rfl : above = 0 := by omega
    rw [stack] at waits
    cases waits
    rw [visited]
    exact List.mem_cons_self ..
  · rw [stack] at waits
    cases waits
  · omega

/-- Any other instruction leaves it waiting, below as many others as are open inside it. -/
theorem waiting_visit {start above next : Nat} {i : Instruction}
    (waits : m.waiting[above]? = some start)
    (weighed : (above + 1 : Nat) + i.weight identifier = (next + 1 : Nat)) :
    (m.visit identifier position i).waiting[next]? = some start := by
  rcases visit_cases identifier position m i with
    ⟨up, visited⟩ | ⟨down, top, others, stack, visited⟩ | ⟨-, stack, -⟩ | ⟨level, visited⟩
  · obtain rfl : next = above + 1 := by omega
    rwa [visited]
  · obtain rfl : above = next + 1 := by omega
    rw [stack] at waits
    rwa [visited]
  · rw [stack] at waits
    cases waits
  · obtain rfl : next = above := by omega
    rwa [visited]

end

/-! ## A whole recipe -/

section

variable {identifier : String} {position : Nat} {m : Matcher}

theorem visitAll_append (p q : Program) :
    visitAll identifier position m (p ++ q) =
      visitAll identifier (position + p.length) (visitAll identifier position m p) q := by
  induction p generalizing position m with
  | nil => rfl
  | cons i p ih =>
    rw [List.cons_append, visitAll, ih, List.length_cons, Nat.add_assoc, Nat.add_comm 1]
    rfl

theorem IsSound.visitAll (sound : m.IsSound position) (p : Program) :
    (m.visitAll identifier position p).IsSound (position + p.length) := by
  induction p generalizing position m with
  | nil => exact sound
  | cons i p ih =>
    have next : (m.visit identifier position i).IsSound (position + 1) := sound.visit i
    have later := ih next
    rwa [Nat.add_right_comm] at later

theorem mem_pairs_visitAll {pair : Nat × Nat} (member : pair ∈ m.pairs) (p : Program) :
    pair ∈ (m.visitAll identifier position p).pairs := by
  induction p generalizing position m with
  | nil => exact member
  | cons i p ih => exact ih (mem_pairs_visit member i)

/-- The search and the pass go on alike from a start that waits below `above` others: either both
find its end, or it is left waiting. -/
theorem visitAll_of_waiting {start above : Nat} (waits : m.waiting[above]? = some start)
    (p : Program) :
    match Program.findEndFrom identifier position (above + 1) p with
    | some last => (start, last) ∈ (m.visitAll identifier position p).pairs
    | none => start ∈ (m.visitAll identifier position p).waiting := by
  induction p generalizing position m above with
  | nil => exact List.mem_of_getElem? waits
  | cons i p ih =>
    obtain closed | ⟨next, isOpen, weighed⟩ :=
      Program.closes_or_leaves_open identifier (Nat.succ_pos above) i
    · rw [(Program.findEndFrom_cons_of_zero position p (Nat.succ_pos above) closed).1]
      exact mem_pairs_visitAll (matched_visit waits closed) p
    · rw [Program.findEndFrom_cons_of_pos isOpen weighed]
      obtain ⟨below, rfl⟩ := Nat.exists_eq_succ_of_ne_zero (Nat.ne_of_gt isOpen)
      exact ih (waiting_visit waits weighed)

end

/-! ## What became of a start -/

theorem IsSound.end_unique {m : Matcher} {position start last last' : Nat}
    (sound : m.IsSound position) (matched : (start, last) ∈ m.pairs)
    (matched' : (start, last') ∈ m.pairs) : last = last' := by
  have firsts : (m.pairs.map Prod.fst).Nodup := (List.nodup_append.1 sound.nodup).2.1
  exact congrArg Prod.snd (List.inj_on_of_nodup_map firsts matched matched' rfl)

theorem IsSound.not_waiting {m : Matcher} {position start last : Nat}
    (sound : m.IsSound position) (matched : (start, last) ∈ m.pairs) : start ∉ m.waiting :=
  fun waits => (List.nodup_append.1 sound.nodup).2.2 start waits start
    (List.mem_map.2 ⟨_, matched, rfl⟩) rfl

end Matcher

namespace Program

/-- A recipe gone through with a stack: the markers with an identifier that belong together, and
the starts that are left without an end. -/
def matched (identifier : String) (p : Program) : Matcher :=
  Matcher.visitAll identifier 0 ⟨[], []⟩ p

section

variable {identifier : String} {p : Program} {start : Nat} {count : UInt32}

theorem isSound_matched (identifier : String) (p : Program) :
    (p.matched identifier).IsSound p.length := by
  have sound : Matcher.IsSound ⟨[], []⟩ 0 := ⟨List.nodup_nil, List.forall_mem_nil _⟩
  have all : (p.matched identifier).IsSound (0 + p.length) := sound.visitAll p
  rwa [Nat.zero_add] at all

/-- What the search finds from a start on is what the pass made of the start. -/
theorem matched_spec (isStart : p[start]? = some (.loopStart identifier count)) :
    match p.findLoopEnd start identifier with
    | some last => (start, last) ∈ (p.matched identifier).pairs
    | none => start ∈ (p.matched identifier).waiting := by
  obtain ⟨inside, startIs⟩ := List.getElem?_eq_some_iff.1 isStart
  have split : p = p.take start ++ .loopStart identifier count :: p.drop (start + 1) := by
    rw [← startIs, ← List.drop_eq_getElem_cons inside, List.take_append_drop]
  have front : (p.take start).length = start := List.length_take_of_le (Nat.le_of_lt inside)
  -- When the pass comes to the start, it puts it on top of the stack.
  have pass : p.matched identifier =
      ((Matcher.visitAll identifier 0 ⟨[], []⟩ (p.take start)).visit identifier start
        (.loopStart identifier count)).visitAll identifier (start + 1) (p.drop (start + 1)) := by
    rw [matched]
    conv_lhs => rw [split]
    rw [Matcher.visitAll_append, front, Nat.zero_add]
    rfl
  have waits : ((Matcher.visitAll identifier 0 ⟨[], []⟩ (p.take start)).visit identifier start
      (.loopStart identifier count)).waiting[0]? = some start := by simp [Matcher.visit]
  rw [findLoopEnd_of_start isStart, pass]
  exact Matcher.visitAll_of_waiting waits _

theorem findLoopEnd_eq_some_iff_matched
    (isStart : p[start]? = some (.loopStart identifier count)) {last : Nat} :
    p.findLoopEnd start identifier = some last ↔
      (start, last) ∈ (p.matched identifier).pairs := by
  have spec := matched_spec isStart
  have sound := isSound_matched identifier p
  cases found : p.findLoopEnd start identifier with
  | some last' =>
    rw [found] at spec
    rw [Option.some.injEq]
    constructor
    · rintro rfl
      exact spec
    · exact sound.end_unique spec
  | none =>
    rw [found] at spec
    simp only [reduceCtorEq, false_iff]
    exact fun isPair => sound.not_waiting isPair spec

theorem findLoopEnd_eq_none_iff_waiting
    (isStart : p[start]? = some (.loopStart identifier count)) :
    p.findLoopEnd start identifier = none ↔ start ∈ (p.matched identifier).waiting := by
  have spec := matched_spec isStart
  cases found : p.findLoopEnd start identifier with
  | some last =>
    rw [found] at spec
    simp only [reduceCtorEq, false_iff]
    exact (isSound_matched identifier p).not_waiting spec
  | none =>
    rw [found] at spec
    simp only [spec]

end

/-! ## Loops with one identifier -/

section

variable {identifier : String} {p : Program} {start start' last last' : Nat}
  {count count' : UInt32}

/-- A loop that starts inside another one with its identifier ends inside it. -/
theorem exists_end_inside (isStart : p[start]? = some (.loopStart identifier count))
    (isStart' : p[start']? = some (.loopStart identifier count'))
    (found : p.findLoopEnd start identifier = some last) (behind : start < start')
    (inside : start' < last) :
    ∃ last', p.findLoopEnd start' identifier = some last' ∧ start' < last' ∧ last' < last := by
  have outer := findLoopEnd_spec isStart
  rw [found] at outer
  obtain ⟨first, -, positive⟩ := outer
  obtain ⟨before, rfl⟩ := Nat.exists_eq_add_one_of_ne_zero (Nat.ne_zero_of_lt behind)
  -- The outer loop is open in front of the inner start and closed at its end.
  have negative : balanceBetween identifier p (before + 1) last < 0 := by
    have split := balanceBetween_split identifier p (Nat.le_of_lt_succ behind)
      (Nat.le_of_succ_le (Nat.le_of_lt inside))
    have opened := positive before (Nat.le_of_lt_succ behind) (Nat.lt_of_succ_lt inside)
    have closed := first.balanced
    omega
  have inner := findLoopEnd_spec isStart'
  cases found' : p.findLoopEnd (before + 1) identifier with
  | none =>
    rw [found'] at inner
    have positive' := inner last (Nat.le_of_lt inside) first.bound
    omega
  | some last' =>
    rw [found'] at inner
    obtain ⟨first', -, positive'⟩ := inner
    refine ⟨last', rfl, first'.behind, ?_⟩
    rcases Nat.lt_trichotomy last' last with earlier | same | later
    · exact earlier
    · have closed' := first'.balanced
      rw [same] at closed'
      omega
    · have := positive' last (Nat.le_of_lt inside) later
      omega

theorem apart_or_inside (isStart : p[start]? = some (.loopStart identifier count))
    (isStart' : p[start']? = some (.loopStart identifier count'))
    (found : p.findLoopEnd start identifier = some last)
    (found' : p.findLoopEnd start' identifier = some last') (behind : start < start') :
    last < start' ∨ last' < last := by
  rcases Nat.lt_trichotomy last start' with apart | same | inside
  · exact .inl apart
  · have isEnd := ((findLoopEnd_eq_some_iff isStart).1 found).isEnd isStart
    rw [same, isStart'] at isEnd
    cases isEnd
  · obtain ⟨_, again, -, earlier⟩ := exists_end_inside isStart isStart' found behind inside
    rw [found'] at again
    cases again
    exact .inr earlier

/-- Two loops with one identifier end at different positions, and one of them lies behind the other
or inside it. -/
theorem apart_or_nested (isStart : p[start]? = some (.loopStart identifier count))
    (isStart' : p[start']? = some (.loopStart identifier count'))
    (found : p.findLoopEnd start identifier = some last)
    (found' : p.findLoopEnd start' identifier = some last') (different : start ≠ start') :
    last ≠ last' ∧
      (last < start' ∨ last' < start ∨ (start < start' ∧ last' < last) ∨
        (start' < start ∧ last < last')) := by
  have behind := ((findLoopEnd_eq_some_iff isStart).1 found).behind
  have behind' := ((findLoopEnd_eq_some_iff isStart').1 found').behind
  rcases Nat.lt_or_gt_of_ne different with first | second
  · have order := apart_or_inside isStart isStart' found found' first
    omega
  · have order := apart_or_inside isStart' isStart found' found second
    omega

end

/-- The search from a start on finds the end that a single pass with a stack matches the start with,
and finds none just for a start that the pass leaves without an end.  So loops with one identifier
end at different positions and never cross, and a loop that starts inside another one ends inside
it. -/
theorem findLoopEnd_matches_stack (identifier : String) (p : Program) :
    (∀ start count, p[start]? = some (.loopStart identifier count) →
      (∀ last, p.findLoopEnd start identifier = some last ↔
        (start, last) ∈ (p.matched identifier).pairs) ∧
      (p.findLoopEnd start identifier = none ↔ start ∈ (p.matched identifier).waiting) ∧
      (p.findLoopEnd start identifier = none ↔
        ∀ last, (start, last) ∉ (p.matched identifier).pairs)) ∧
    ∀ start start' count count', p[start]? = some (.loopStart identifier count) →
      p[start']? = some (.loopStart identifier count') → start ≠ start' →
      ∀ last, p.findLoopEnd start identifier = some last →
        (∀ last', p.findLoopEnd start' identifier = some last' →
          last ≠ last' ∧
            (last < start' ∨ last' < start ∨ (start < start' ∧ last' < last) ∨
              (start' < start ∧ last < last'))) ∧
        (start < start' → start' < last →
          ∃ last', p.findLoopEnd start' identifier = some last' ∧
            start' < last' ∧ last' < last) := by
  refine ⟨fun start count isStart => ⟨fun last => findLoopEnd_eq_some_iff_matched isStart,
    findLoopEnd_eq_none_iff_waiting isStart, ?_⟩, ?_⟩
  · rw [Option.eq_none_iff_forall_ne_some]
    exact forall_congr' fun last => not_congr (findLoopEnd_eq_some_iff_matched isStart)
  · intro start start' count count' isStart isStart' different last found
    exact ⟨fun last' found' => apart_or_nested isStart isStart' found found' different,
      exists_end_inside isStart isStart' found⟩

/-- A loop in a loop with its identifier, behind an end without a start and in front of a start
without an end. -/
def strayMarkers : Program :=
  [.loopEnd "a", .loopStart "a" 1, .loopStart "a" 2, .loopEnd "a", .loopEnd "b", .loopEnd "a",
    .loopStart "a" 3]

theorem findLoopEnd_matches_stack_strayMarkers :
    (strayMarkers.findLoopEnd 1 "a" = some 5 ∧ (1, 5) ∈ (strayMarkers.matched "a").pairs) ∧
      (strayMarkers.findLoopEnd 6 "a" = none ∧ 6 ∈ (strayMarkers.matched "a").waiting) ∧
      ∃ last, strayMarkers.findLoopEnd 2 "a" = some last ∧ 2 < last ∧ last < 5 := by
  obtain ⟨matching, crossing⟩ := findLoopEnd_matches_stack "a" strayMarkers
  have found : strayMarkers.findLoopEnd 1 "a" = some 5 := by decide
  have missing : strayMarkers.findLoopEnd 6 "a" = none := by decide
  exact ⟨⟨found, ((matching 1 1 rfl).1 5).1 found⟩, ⟨missing, (matching 6 3 rfl).2.1.1 missing⟩,
    (crossing 1 2 1 2 rfl rfl (by decide) 5 found).2 (by decide) (by decide)⟩

end Program

end RecipeEngine
