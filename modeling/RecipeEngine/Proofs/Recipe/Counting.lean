import RecipeEngine.Proofs.Recipe.Balance
import Mathlib.Data.List.Forall2

/-!
# What the search for the end of a loop counts

The search counts the markers with its identifier, up at a start and down at an end.  A *recorded*
search keeps the count behind each instruction that it reads, and stops where the count would go
below zero.  From a loop start on this does not happen: the count is always the number of starts
less the number of ends so far, and it is positive until the search is over (`findLoopEnd_counts`).
-/

namespace RecipeEngine

/-! ## Starts and ends -/

namespace Instruction

def opens (identifier : String) : Instruction → Bool
  | .loopStart id _ => id = identifier
  | _ => false

def closes (identifier : String) : Instruction → Bool
  | .loopEnd id => id = identifier
  | _ => false

/-- Whether an instruction is a loop marker with an identifier. -/
def marks (identifier : String) (i : Instruction) : Bool :=
  i.opens identifier || i.closes identifier

theorem weight_eq (identifier : String) (i : Instruction) :
    i.weight identifier =
      ((if i.opens identifier then 1 else 0 : Nat) : Int) -
        (if i.closes identifier then 1 else 0 : Nat) := by
  cases i with
  | step s => rfl
  | unsupported => rfl
  | loopStart id iterations =>
    by_cases same : id = identifier <;> simp [weight, opens, closes, same]
  | loopEnd id =>
    by_cases same : id = identifier <;> simp [weight, opens, closes, same]

end Instruction

namespace Program

/-- The instructions from one position of a recipe to another, both positions included. -/
def stretch (p : Program) (first last : Nat) : Program := (p.take (last + 1)).drop first

/-- How many loop starts with an identifier a recipe has. -/
def openings (identifier : String) (p : Program) : Nat := p.countP (Instruction.opens identifier)

/-- How many loop ends with an identifier a recipe has. -/
def closings (identifier : String) (p : Program) : Nat := p.countP (Instruction.closes identifier)

theorem balance_eq (identifier : String) (p : Program) :
    balance identifier p = openings identifier p - closings identifier p := by
  induction p with
  | nil => rfl
  | cons i p ih =>
    rw [balance_cons, ih, Instruction.weight_eq]
    simp only [openings, closings, List.countP_cons]
    omega

section

variable {identifier : String} {p : Program} {first last : Nat}

theorem balanceBetween_eq : balanceBetween identifier p first last =
    openings identifier (p.stretch first last) - closings identifier (p.stretch first last) :=
  balance_eq identifier (p.stretch first last)

theorem balanceBetween_eq_zero_iff : balanceBetween identifier p first last = 0 ↔
    openings identifier (p.stretch first last) = closings identifier (p.stretch first last) := by
  rw [balanceBetween_eq]
  omega

theorem balanceBetween_pos_iff : 0 < balanceBetween identifier p first last ↔
    closings identifier (p.stretch first last) < openings identifier (p.stretch first last) := by
  rw [balanceBetween_eq]
  omega

end

/-! ## The recorded search -/

/-- What a search for the end of a loop did: the count behind each instruction that it read, and
what it found.  Instead it may have met a loop end, at some position, with nothing to count down
from. -/
structure SearchRecord where
  counts : List Nat
  outcome : Except Nat (Option Nat)

/-- The record of a search that had read one more instruction before. -/
def SearchRecord.behind (count : Nat) (s : SearchRecord) : SearchRecord :=
  { s with counts := count :: s.counts }

/-- Goes on counting like `findEndFrom` and keeps a record. -/
def recordFrom (identifier : String) (position count : Nat) : Program → SearchRecord
  | [] => ⟨[], .ok none⟩
  | i :: rest =>
      match i with
      | .loopStart id _ =>
          let next := if id = identifier then count + 1 else count
          (recordFrom identifier (position + 1) next rest).behind next
      | .loopEnd id =>
          if id = identifier then
            if count = 0 then ⟨[], .error position⟩
            else if count - 1 = 0 then ⟨[0], .ok (some position)⟩
            else (recordFrom identifier (position + 1) (count - 1) rest).behind (count - 1)
          else (recordFrom identifier (position + 1) count rest).behind count
      | _ => (recordFrom identifier (position + 1) count rest).behind count

/-- The record of the search for the end of the loop that starts at `start`. -/
def recordSearch (p : Program) (start : Nat) (identifier : String) : SearchRecord :=
  recordFrom identifier start 0 (p.drop start)

theorem recordFrom_cons_of_pos {identifier : String} {position count next : Nat} {i : Instruction}
    {p : Program} (positive : 0 < next) (weighed : (count : Int) + i.weight identifier = next) :
    recordFrom identifier position count (i :: p) =
      (recordFrom identifier (position + 1) next p).behind next := by
  cases i with
  | step s =>
    simp only [Instruction.weight] at weighed
    simp [recordFrom, show next = count by omega]
  | unsupported =>
    simp only [Instruction.weight] at weighed
    simp [recordFrom, show next = count by omega]
  | loopStart id iterations =>
    simp only [Instruction.weight] at weighed
    by_cases same : id = identifier
    · rw [if_pos same] at weighed
      simp [recordFrom, same, show next = count + 1 by omega]
    · rw [if_neg same] at weighed
      simp [recordFrom, same, show next = count by omega]
  | loopEnd id =>
    simp only [Instruction.weight] at weighed
    by_cases same : id = identifier
    · rw [if_pos same] at weighed
      have counted : count ≠ 0 := by omega
      simp [recordFrom, same, counted, show count - 1 = next by omega, Nat.ne_of_gt positive]
    · rw [if_neg same] at weighed
      simp [recordFrom, same, show next = count by omega]

/-- An instruction that closes the last open loop ends the search. -/
theorem recordFrom_cons_of_zero {identifier : String} {count : Nat} {i : Instruction}
    (position : Nat) (p : Program) (positive : 0 < count)
    (weighed : (count : Int) + i.weight identifier = 0) :
    recordFrom identifier position count (i :: p) = ⟨[0], .ok (some position)⟩ := by
  obtain ⟨-, rfl⟩ := findEndFrom_cons_of_zero position p positive weighed
  have one : count = 1 := by
    simp only [Instruction.weight, reduceIte] at weighed
    omega
  simp [recordFrom, one]

/-- What reading one instruction does while loops are open: the search is over at the end that
closes the last of them, and otherwise it goes on with the loops that are open then. -/
theorem recordFrom_cons_cases (identifier : String) (position : Nat) {count : Nat}
    (positive : 0 < count) (i : Instruction) (p : Program) :
    ((count : Int) + i.weight identifier = 0 ∧
        findEndFrom identifier position count (i :: p) = some position ∧
        recordFrom identifier position count (i :: p) = ⟨[0], .ok (some position)⟩) ∨
      ∃ next : Nat, 0 < next ∧ (count : Int) + i.weight identifier = next ∧
        findEndFrom identifier position count (i :: p) =
          findEndFrom identifier (position + 1) next p ∧
        recordFrom identifier position count (i :: p) =
          (recordFrom identifier (position + 1) next p).behind next := by
  obtain closed | ⟨next, isOpen, weighed⟩ := closes_or_leaves_open identifier positive i
  · exact .inl ⟨closed, (findEndFrom_cons_of_zero position p positive closed).1,
      recordFrom_cons_of_zero position p positive closed⟩
  · exact .inr ⟨next, isOpen, weighed, findEndFrom_cons_of_pos isOpen weighed,
      recordFrom_cons_of_pos isOpen weighed⟩

/-- No loop end is met with nothing to count down from, and the search finds what it finds without
a record. -/
theorem recordFrom_outcome (identifier : String) (p : Program) (position : Nat) {count : Nat}
    (positive : 0 < count) :
    (recordFrom identifier position count p).outcome =
      .ok (findEndFrom identifier position count p) := by
  induction p generalizing position count with
  | nil => rfl
  | cons i p ih =>
    obtain ⟨-, search, record⟩ | ⟨next, isOpen, -, search, record⟩ :=
      recordFrom_cons_cases identifier position positive i p
    · rw [record, search]
    · rw [record, search]
      exact ih (position + 1) isOpen

/-- The search reads the instructions up to the end that it finds, or all of them. -/
theorem recordFrom_length (identifier : String) (p : Program) (position : Nat) {count : Nat}
    (positive : 0 < count) :
    position + (recordFrom identifier position count p).counts.length =
      ((findEndFrom identifier position count p).map (· + 1)).getD (position + p.length) := by
  induction p generalizing position count with
  | nil => rfl
  | cons i p ih =>
    obtain ⟨-, search, record⟩ | ⟨next, isOpen, -, search, record⟩ :=
      recordFrom_cons_cases identifier position positive i p
    · rw [record, search]
      rfl
    · have rest := ih (position + 1) isOpen
      rw [record, search, SearchRecord.behind, List.length_cons, List.length_cons]
      rwa [Nat.add_right_comm, Nat.add_assoc, Nat.add_right_comm position 1, Nat.add_assoc] at rest

/-- Each count in the record is the number of loops that are open behind the instruction. -/
theorem recordFrom_count {identifier : String} {p : Program} {position count j n : Nat}
    (positive : 0 < count)
    (counted : (recordFrom identifier position count p).counts[j]? = some n) :
    (n : Int) = count + balance identifier (p.take (j + 1)) := by
  induction p generalizing position count j with
  | nil => cases counted
  | cons i p ih =>
    rw [List.take_succ_cons, balance_cons, ← Int.add_assoc]
    obtain ⟨closed, -, record⟩ | ⟨next, isOpen, weighed, -, record⟩ :=
      recordFrom_cons_cases identifier position positive i p
    · rw [record] at counted
      rw [closed]
      -- The record ends here, so there is no count behind another instruction.
      cases j with
      | zero =>
        cases counted
        rfl
      | succ j => cases counted
    · rw [record, SearchRecord.behind] at counted
      rw [weighed]
      cases j with
      | zero =>
        cases counted
        simp
      | succ j => exact ih isOpen counted

section

variable {p : Program} {start : Nat} {identifier : String} {iterations : UInt32}

theorem recordSearch_of_start
    (isStart : p[start]? = some (.loopStart identifier iterations)) :
    p.recordSearch start identifier =
      (recordFrom identifier (start + 1) 1 (p.drop (start + 1))).behind 1 := by
  obtain ⟨inside, startIs⟩ := List.getElem?_eq_some_iff.1 isStart
  rw [recordSearch, List.drop_eq_getElem_cons inside, startIs]
  exact recordFrom_cons_of_pos Nat.one_pos (by simp [Instruction.weight])

theorem recordSearch_outcome
    (isStart : p[start]? = some (.loopStart identifier iterations)) :
    (p.recordSearch start identifier).outcome = .ok (p.findLoopEnd start identifier) := by
  rw [recordSearch_of_start isStart, findLoopEnd_of_start isStart]
  exact recordFrom_outcome identifier _ (start + 1) Nat.one_pos

theorem recordSearch_length
    (isStart : p[start]? = some (.loopStart identifier iterations)) :
    start + (p.recordSearch start identifier).counts.length =
      ((p.findLoopEnd start identifier).map (· + 1)).getD p.length := by
  have rest := recordFrom_length identifier (p.drop (start + 1)) (start + 1) Nat.one_pos
  have inside := (List.getElem?_eq_some_iff.1 isStart).1
  rw [recordSearch_of_start isStart, findLoopEnd_of_start isStart, SearchRecord.behind,
    List.length_cons, Nat.add_comm _ 1, ← Nat.add_assoc, rest, List.length_drop,
    Nat.add_sub_cancel' inside]

/-- Each count is the balance from the start to the instruction. -/
theorem recordSearch_count {i n : Nat}
    (isStart : p[start]? = some (.loopStart identifier iterations)) (behind : start ≤ i)
    (counted : (p.recordSearch start identifier).counts[i - start]? = some n) :
    (n : Int) = balanceBetween identifier p start i := by
  obtain ⟨j, rfl⟩ := Nat.exists_eq_add_of_le behind
  rw [recordSearch_of_start isStart, SearchRecord.behind, Nat.add_sub_cancel_left] at counted
  rw [balanceBetween_of_start isStart]
  cases j with
  | zero =>
    cases counted
    simp
  | succ j => exact recordFrom_count Nat.one_pos counted

end

/-! ## Other instructions -/

/-- Whether two recipes differ only in instructions that are no markers with an identifier. -/
def SameMarkers (identifier : String) : Program → Program → Prop :=
  List.Forall₂ fun i j => i = j ∨ i.marks identifier = false ∧ j.marks identifier = false

theorem findEndFrom_cons_of_unmarked {identifier : String} {i : Instruction}
    (unmarked : i.marks identifier = false) (position count : Nat) (p : Program) :
    findEndFrom identifier position count (i :: p) =
      findEndFrom identifier (position + 1) count p := by
  cases i with
  | step s => rfl
  | unsupported => rfl
  | loopStart id iterations =>
    have different : id ≠ identifier := by
      simpa [Instruction.marks, Instruction.opens, Instruction.closes] using unmarked
    rw [findEndFrom, if_neg different]
  | loopEnd id =>
    have different : id ≠ identifier := by
      simpa [Instruction.marks, Instruction.opens, Instruction.closes] using unmarked
    rw [findEndFrom, if_neg different]

theorem findEndFrom_eq_of_sameMarkers {identifier : String} {p q : Program}
    (same : SameMarkers identifier p q) (position count : Nat) :
    findEndFrom identifier position count q = findEndFrom identifier position count p := by
  induction same generalizing position count with
  | nil => rfl
  | @cons i j p q alike _ ih =>
    obtain rfl | ⟨unmarked, unmarked'⟩ := alike
    · cases i with
      | step s => exact ih _ _
      | unsupported => exact ih _ _
      | loopStart id iterations => exact ih _ _
      | loopEnd id => simp only [findEndFrom, ih]
    · rw [findEndFrom_cons_of_unmarked unmarked, findEndFrom_cons_of_unmarked unmarked', ih]

theorem findLoopEnd_eq_of_sameMarkers {identifier : String} {p q : Program}
    (same : SameMarkers identifier p q) (start : Nat) :
    q.findLoopEnd start identifier = p.findLoopEnd start identifier :=
  findEndFrom_eq_of_sameMarkers (List.forall₂_drop start same) start 0

/-! ## The search from a loop start -/

section

variable {p : Program} {start : Nat} {identifier : String} {iterations : UInt32}

theorem balanceBetween_start
    (isStart : p[start]? = some (.loopStart identifier iterations)) :
    balanceBetween identifier p start start = 1 := by
  simpa using balanceBetween_of_start isStart 0

theorem findLoopEnd_eq_some_iff_least {last : Nat}
    (isStart : p[start]? = some (.loopStart identifier iterations)) :
    p.findLoopEnd start identifier = some last ↔
      start ≤ last ∧ last < p.length ∧ balanceBetween identifier p start last = 0 ∧
        ∀ i, start ≤ i → i < last → balanceBetween identifier p start i ≠ 0 := by
  have atStart := balanceBetween_start isStart
  rw [findLoopEnd_eq_some_iff isStart]
  constructor
  · intro first
    refine ⟨Nat.le_of_lt first.behind, first.bound, first.balanced, fun i lower upper => ?_⟩
    obtain rfl | behind := Nat.eq_or_lt_of_le lower
    · omega
    · exact first.least i behind upper
  · rintro ⟨lower, bound, balanced, least⟩
    have behind : start < last := by
      refine Nat.lt_of_le_of_ne lower fun same => ?_
      subst same
      omega
    exact ⟨behind, bound, balanced, fun i after => least i (Nat.le_of_lt after)⟩

theorem findLoopEnd_eq_none_iff_pos
    (isStart : p[start]? = some (.loopStart identifier iterations)) :
    p.findLoopEnd start identifier = none ↔
      ∀ i, start ≤ i → i < p.length → 0 < balanceBetween identifier p start i := by
  constructor
  · intro none
    have spec := findLoopEnd_spec isStart
    rwa [none] at spec
  · intro positive
    rw [findLoopEnd_eq_none_iff isStart]
    exact fun i behind bound => Int.ne_of_gt (positive i (Nat.le_of_lt behind) bound)

/-- The search reads no further than the end that it finds, and before that the balance is
positive. -/
theorem recordSearch_pos {i n : Nat}
    (isStart : p[start]? = some (.loopStart identifier iterations)) (behind : start ≤ i)
    (counted : (p.recordSearch start identifier).counts[i - start]? = some n) :
    p.findLoopEnd start identifier = some i ∨ 0 < n := by
  have balance := recordSearch_count isStart behind counted
  have read := (List.getElem?_eq_some_iff.1 counted).1
  have lengths := recordSearch_length isStart
  have spec := findLoopEnd_spec isStart
  cases found : p.findLoopEnd start identifier with
  | some last =>
    rw [found] at spec lengths
    obtain rfl | before := Nat.eq_or_lt_of_le (show i ≤ last by
      simp only [Option.map_some, Option.getD_some] at lengths
      omega)
    · exact .inl rfl
    · have positive := spec.2.2 i behind before
      exact .inr (by omega)
  | none =>
    rw [found] at spec lengths
    have positive := spec i behind (by
      simp only [Option.map_none, Option.getD_none] at lengths
      omega)
    exact .inr (by omega)

end

/-- From a loop start on the search counts without going below zero.  It reads up to the end that it
finds, or everything; behind each instruction its count is the number of loop starts with its
identifier less that of loop ends, from the start to there, and positive unless the search is over.
It finds the first position where the two numbers are equal, which is a loop end behind the start,
and nothing if there are more starts all the way.  Other instructions make no difference. -/
theorem findLoopEnd_counts {p : Program} {start : Nat} {identifier : String} {iterations : UInt32}
    (isStart : p[start]? = some (.loopStart identifier iterations)) :
    (∃ counts, p.recordSearch start identifier =
        ⟨counts, .ok (p.findLoopEnd start identifier)⟩ ∧
      start + counts.length = ((p.findLoopEnd start identifier).map (· + 1)).getD p.length ∧
      ∀ i n, start ≤ i → counts[i - start]? = some n →
        n + closings identifier (p.stretch start i) = openings identifier (p.stretch start i) ∧
        (p.findLoopEnd start identifier = some i ∨ 0 < n)) ∧
      (∀ last, p.findLoopEnd start identifier = some last ↔
        start ≤ last ∧ last < p.length ∧
          openings identifier (p.stretch start last) = closings identifier (p.stretch start last) ∧
          ∀ i, start ≤ i → i < last →
            openings identifier (p.stretch start i) ≠ closings identifier (p.stretch start i)) ∧
      (∀ last, p.findLoopEnd start identifier = some last →
        start < last ∧ last < p.length ∧ p[last]? = some (.loopEnd identifier)) ∧
      (p.findLoopEnd start identifier = none ↔ ∀ i, start ≤ i → i < p.length →
        closings identifier (p.stretch start i) < openings identifier (p.stretch start i)) ∧
      ∀ q, SameMarkers identifier p q →
        q.findLoopEnd start identifier = p.findLoopEnd start identifier := by
  refine ⟨⟨(p.recordSearch start identifier).counts, ?_, recordSearch_length isStart, ?_⟩,
    fun last => ?_, fun last found => ?_, ?_, fun q same => findLoopEnd_eq_of_sameMarkers same _⟩
  · rw [← recordSearch_outcome isStart]
  · intro i n behind counted
    refine ⟨?_, recordSearch_pos isStart behind counted⟩
    have count := recordSearch_count isStart behind counted
    rw [balanceBetween_eq] at count
    omega
  · simp only [findLoopEnd_eq_some_iff_least isStart, ne_eq, balanceBetween_eq_zero_iff]
  · have first := (findLoopEnd_eq_some_iff isStart).1 found
    exact ⟨first.behind, first.bound, first.isEnd isStart⟩
  · simp only [findLoopEnd_eq_none_iff_pos isStart, balanceBetween_pos_iff]

/-- A loop with another one of its identifier in it, and one that crosses its end. -/
def crossed : Program :=
  [.unsupported, .loopStart "a" 2, .loopStart "b" 1, .loopStart "a" 3, .loopEnd "a",
    .step ⟨"s", "f", 1⟩, .loopEnd "a", .loopEnd "b", .loopEnd "a"]

/-- The same with other instructions between the markers of the loop. -/
def crossedElsewhere : Program :=
  [.loopEnd "b", .loopStart "a" 2, .unsupported, .loopStart "a" 3, .loopEnd "a", .loopEnd "b",
    .loopEnd "a", .unsupported, .loopEnd "a"]

theorem findLoopEnd_counts_crossed :
    crossed[1]? = some (.loopStart "a" 2) ∧
      crossed.recordSearch 1 "a" = ⟨[1, 1, 2, 1, 1, 0], .ok (some 6)⟩ ∧
      crossed.findLoopEnd 1 "a" = some 6 ∧ crossed[6]? = some (.loopEnd "a") ∧
      crossedElsewhere.findLoopEnd 1 "a" = some 6 := by
  have isStart : crossed[1]? = some (.loopStart "a" 2) := rfl
  have same : SameMarkers "a" crossed crossedElsewhere := by
    simp [SameMarkers, crossed, crossedElsewhere, Instruction.marks, Instruction.opens,
      Instruction.closes]
  obtain ⟨-, -, ends, -, alike⟩ := findLoopEnd_counts isStart
  have found : crossed.findLoopEnd 1 "a" = some 6 := by decide
  exact ⟨isStart, rfl, found, (ends 6 found).2.2, (alike _ same).trans found⟩

end Program

end RecipeEngine
