import RecipeEngine.Recipe.Loop

/-!
# The end of a loop

Among the markers with one identifier each start counts up and each end counts down; the *balance*
of a stretch of a recipe is their sum.  The search for the end of a loop stops at the first
position behind the start at which the balance from the start on is zero, and up to there the
balance is positive (`findLoopEnd_spec`).
-/

namespace RecipeEngine

def Instruction.weight (identifier : String) : Instruction → Int
  | .loopStart id _ => if id = identifier then 1 else 0
  | .loopEnd id => if id = identifier then -1 else 0
  | _ => 0

namespace Program

/-- The loop starts of a recipe with an identifier less its loop ends with that identifier. -/
def balance (identifier : String) : Program → Int
  | [] => 0
  | i :: p => i.weight identifier + balance identifier p

/-- The balance from one position of a recipe to another, both positions included. -/
def balanceBetween (identifier : String) (p : Program) (first last : Nat) : Int :=
  balance identifier ((p.take (last + 1)).drop first)

/-- `last` is the first position behind `first` at which the markers with an identifier balance,
counted from `first`. -/
structure IsFirstBalanced (identifier : String) (p : Program) (first last : Nat) : Prop where
  behind : first < last
  bound : last < p.length
  balanced : balanceBetween identifier p first last = 0
  least : ∀ i, first < i → i < last → balanceBetween identifier p first i ≠ 0

/-! ## Balances -/

@[simp] theorem balance_nil (identifier : String) : balance identifier [] = 0 := rfl

@[simp] theorem balance_cons (identifier : String) (i : Instruction) (p : Program) :
    balance identifier (i :: p) = i.weight identifier + balance identifier p := rfl

theorem balance_append (identifier : String) (p q : Program) :
    balance identifier (p ++ q) = balance identifier p + balance identifier q := by
  induction p with
  | nil => simp
  | cons i p ih => rw [List.cons_append, balance_cons, balance_cons, ih, Int.add_assoc]

theorem balanceBetween_split (identifier : String) (p : Program) {first middle last : Nat}
    (lower : first ≤ middle) (upper : middle ≤ last) :
    balanceBetween identifier p first last =
      balanceBetween identifier p first middle +
        balanceBetween identifier p (middle + 1) last := by
  have split := List.take_append_drop (middle + 1 - first) ((p.take (last + 1)).drop first)
  rw [List.drop_drop, ← List.drop_take, List.take_take, Nat.add_sub_cancel' (by omega),
    Nat.min_eq_left (by omega)] at split
  rw [balanceBetween, ← split, balance_append]
  rfl

theorem IsFirstBalanced.unique {identifier : String} {p : Program} {first last last' : Nat}
    (found : IsFirstBalanced identifier p first last)
    (found' : IsFirstBalanced identifier p first last') : last = last' := by
  rcases Nat.lt_trichotomy last last' with before | same | after
  · exact absurd found.balanced (found'.least last found.behind before)
  · exact same
  · exact absurd found'.balanced (found.least last' found'.behind after)

/-! ## The search -/

/-- An instruction closes the last of the loops that are open, or some are open behind it. -/
theorem closes_or_leaves_open (identifier : String) {balance : Nat} (positive : 0 < balance)
    (i : Instruction) :
    (balance : Int) + i.weight identifier = 0 ∨
      ∃ next : Nat, 0 < next ∧ (balance : Int) + i.weight identifier = next := by
  have lower : -1 ≤ i.weight identifier := by
    cases i <;> simp only [Instruction.weight] <;> (try split) <;> omega
  by_cases closed : (balance : Int) + i.weight identifier = 0
  · exact .inl closed
  · exact .inr ⟨(balance + i.weight identifier).toNat, by omega, by omega⟩

theorem findEndFrom_cons_of_pos {identifier : String} {position balance next : Nat}
    {i : Instruction} {p : Program} (positive : 0 < next)
    (weighed : (balance : Int) + i.weight identifier = next) :
    findEndFrom identifier position balance (i :: p) =
      findEndFrom identifier (position + 1) next p := by
  cases i with
  | step s =>
    simp only [Instruction.weight] at weighed
    simp [findEndFrom, show next = balance by omega]
  | unsupported =>
    simp only [Instruction.weight] at weighed
    simp [findEndFrom, show next = balance by omega]
  | loopStart id iterations =>
    simp only [Instruction.weight] at weighed
    by_cases same : id = identifier
    · rw [if_pos same] at weighed
      simp [findEndFrom, same, show next = balance + 1 by omega]
    · rw [if_neg same] at weighed
      simp [findEndFrom, same, show next = balance by omega]
  | loopEnd id =>
    simp only [Instruction.weight] at weighed
    by_cases same : id = identifier
    · rw [if_pos same] at weighed
      simp [findEndFrom, same, show balance - 1 = next by omega, Nat.ne_of_gt positive]
    · rw [if_neg same] at weighed
      simp [findEndFrom, same, show next = balance by omega]

theorem findEndFrom_cons_of_zero {identifier : String} {balance : Nat} {i : Instruction}
    (position : Nat) (p : Program) (positive : 0 < balance)
    (weighed : (balance : Int) + i.weight identifier = 0) :
    findEndFrom identifier position balance (i :: p) = some position ∧
      i = .loopEnd identifier := by
  cases i with
  | step s => simp [Instruction.weight] at weighed; omega
  | unsupported => simp [Instruction.weight] at weighed; omega
  | loopStart id iterations =>
    simp only [Instruction.weight] at weighed
    split at weighed <;> omega
  | loopEnd id =>
    simp only [Instruction.weight] at weighed
    split at weighed
    next same => simp [findEndFrom, same, show balance - 1 = 0 by omega]
    next different => omega

/-- What the search says about the instructions that are left, `balance` loops being open: it
gives the first place at which all of them are closed, and before that place some are open. -/
theorem findEndFrom_spec (identifier : String) (p : Program) (position : Nat) {balance : Nat}
    (positive : 0 < balance) :
    match findEndFrom identifier position balance p with
    | some last => ∃ i, last = position + i ∧ p[i]? = some (.loopEnd identifier) ∧
        balance + Program.balance identifier (p.take (i + 1)) = 0 ∧
        ∀ j < i, 0 < balance + Program.balance identifier (p.take (j + 1))
    | none => ∀ j < p.length, 0 < balance + Program.balance identifier (p.take (j + 1)) := by
  -- The invariant is that loops are open: one that closes the last of them ends the search.
  induction p generalizing position balance with
  | nil => simp [findEndFrom]
  | cons i p ih =>
    obtain closed | ⟨next, open_next, weighed⟩ := closes_or_leaves_open identifier positive i
    · obtain ⟨found, isEnd⟩ := findEndFrom_cons_of_zero position p positive closed
      rw [found]
      exact ⟨0, rfl, by simp [isEnd], by simpa using closed, by simp⟩
    · -- Some loop stays open, and the induction goes on with the loops that are open then.
      have front : ∀ j, (balance : Int) + Program.balance identifier ((i :: p).take (j + 1 + 1)) =
          next + Program.balance identifier (p.take (j + 1)) := by
        intro j
        rw [List.take_succ_cons, balance_cons]
        omega
      rw [findEndFrom_cons_of_pos open_next weighed]
      have rest := ih (position + 1) open_next
      cases found : findEndFrom identifier (position + 1) next p with
      | some last =>
        rw [found] at rest
        obtain ⟨k, rfl, isEnd, zero, before⟩ := rest
        refine ⟨k + 1, by omega, by simpa using isEnd, by rw [front, zero], ?_⟩
        intro j earlier
        cases j with
        | zero => simp; omega
        | succ j => rw [front]; exact before j (by omega)
      | none =>
        rw [found] at rest
        intro j bound
        cases j with
        | zero => simp; omega
        | succ j => rw [front]; exact rest j (by simpa using bound)

/-- From a loop start on, the search goes on behind it with one loop open. -/
theorem findLoopEnd_of_start {p : Program} {start : Nat} {identifier : String}
    {iterations : UInt32} (isStart : p[start]? = some (.loopStart identifier iterations)) :
    p.findLoopEnd start identifier =
      findEndFrom identifier (start + 1) 1 (p.drop (start + 1)) := by
  obtain ⟨inside, startIs⟩ := List.getElem?_eq_some_iff.1 isStart
  rw [findLoopEnd, List.drop_eq_getElem_cons inside, startIs]
  exact findEndFrom_cons_of_pos (by omega) (by simp [Instruction.weight])

theorem balanceBetween_of_start {p : Program} {start : Nat} {identifier : String}
    {iterations : UInt32} (isStart : p[start]? = some (.loopStart identifier iterations))
    (j : Nat) :
    balanceBetween identifier p start (start + j) =
      (1 : Nat) + balance identifier ((p.drop (start + 1)).take j) := by
  obtain ⟨inside, startIs⟩ := List.getElem?_eq_some_iff.1 isStart
  rw [balanceBetween, List.drop_take, List.drop_eq_getElem_cons inside, startIs,
    show start + j + 1 - start = j + 1 by omega, List.take_succ_cons, balance_cons]
  simp [Instruction.weight]

theorem balanceBetween_pos {p : Program} {start : Nat} {identifier : String}
    {iterations : UInt32} (isStart : p[start]? = some (.loopStart identifier iterations)) {n : Nat}
    (opened : ∀ j < n,
      0 < (1 : Nat) + balance identifier ((p.drop (start + 1)).take (j + 1)))
    {i : Nat} (lower : start ≤ i) (upper : i ≤ start + n) :
    0 < balanceBetween identifier p start i := by
  obtain ⟨j, rfl⟩ := Nat.exists_eq_add_of_le lower
  rw [balanceBetween_of_start isStart]
  cases j with
  | zero => simp
  | succ j => exact opened j (by omega)

/-- From a loop start on, the search gives the first position at which the markers with the
identifier of the loop balance, and there stands an end of the loop.  Before that position, or up
to the end of the recipe if there is none, the balance is positive. -/
theorem findLoopEnd_spec {p : Program} {start : Nat} {identifier : String} {iterations : UInt32}
    (isStart : p[start]? = some (.loopStart identifier iterations)) :
    match p.findLoopEnd start identifier with
    | some last => IsFirstBalanced identifier p start last ∧
        p[last]? = some (.loopEnd identifier) ∧
        ∀ i, start ≤ i → i < last → 0 < balanceBetween identifier p start i
    | none => ∀ i, start ≤ i → i < p.length → 0 < balanceBetween identifier p start i := by
  have spec := findEndFrom_spec identifier (p.drop (start + 1)) (start + 1) Nat.one_pos
  rw [findLoopEnd_of_start isStart]
  cases found : findEndFrom identifier (start + 1) 1 (p.drop (start + 1)) with
  | some last =>
    rw [found] at spec
    obtain ⟨k, rfl, isEnd, zero, before⟩ := spec
    have positive : ∀ i, start ≤ i → i < start + 1 + k →
        0 < balanceBetween identifier p start i := fun i lower upper =>
      balanceBetween_pos isStart before lower (by omega)
    have balanced : balanceBetween identifier p start (start + 1 + k) = 0 := by
      rw [Nat.add_assoc, Nat.add_comm 1, balanceBetween_of_start isStart]
      exact zero
    rw [List.getElem?_drop] at isEnd
    have bound := (List.getElem?_eq_some_iff.1 isEnd).1
    refine ⟨⟨by omega, bound, balanced, ?_⟩, isEnd, positive⟩
    intro i behind earlier
    exact Int.ne_of_gt (positive i (by omega) earlier)
  | none =>
    rw [found] at spec
    intro i lower bound
    apply balanceBetween_pos isStart spec lower
    rw [List.length_drop]
    omega

theorem findLoopEnd_eq_some_iff {p : Program} {start last : Nat} {identifier : String}
    {iterations : UInt32} (isStart : p[start]? = some (.loopStart identifier iterations)) :
    p.findLoopEnd start identifier = some last ↔ IsFirstBalanced identifier p start last := by
  have spec := findLoopEnd_spec isStart
  cases found : p.findLoopEnd start identifier with
  | some last' =>
    rw [found] at spec
    constructor
    · intro same
      cases same
      exact spec.1
    · intro first
      rw [spec.1.unique first]
  | none =>
    rw [found] at spec
    constructor
    · intro same
      cases same
    · intro first
      have positive := spec last (Nat.le_of_lt first.behind) first.bound
      have zero := first.balanced
      omega

theorem IsFirstBalanced.isEnd {p : Program} {start last : Nat} {identifier : String}
    {iterations : UInt32} (first : IsFirstBalanced identifier p start last)
    (isStart : p[start]? = some (.loopStart identifier iterations)) :
    p[last]? = some (.loopEnd identifier) := by
  have spec := findLoopEnd_spec isStart
  rw [(findLoopEnd_eq_some_iff isStart).2 first] at spec
  exact spec.2.1

theorem findLoopEnd_eq_none_iff {p : Program} {start : Nat} {identifier : String}
    {iterations : UInt32} (isStart : p[start]? = some (.loopStart identifier iterations)) :
    p.findLoopEnd start identifier = none ↔
      ∀ i, start < i → i < p.length → balanceBetween identifier p start i ≠ 0 := by
  have spec := findLoopEnd_spec isStart
  cases found : p.findLoopEnd start identifier with
  | some last =>
    rw [found] at spec
    constructor
    · intro same
      cases same
    · intro never
      exact absurd spec.1.balanced (never last spec.1.behind spec.1.bound)
  | none =>
    rw [found] at spec
    refine ⟨fun _ i behind bound => ?_, fun _ => rfl⟩
    exact Int.ne_of_gt (spec i (Nat.le_of_lt behind) bound)

end Program

end RecipeEngine
