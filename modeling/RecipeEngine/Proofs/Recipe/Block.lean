import RecipeEngine.Recipe.Basic

/-!
# Well-formed recipes

A recipe is *well-formed* when it is a row of blocks, each of them a single step or a loop whose
body holds steps only.  Blocks can be told apart from the front (`instructions_append_inj`), so a
recipe has at most one such reading (`ofBlocks_injective`).

Every recipe has a longest well-formed prefix.  It is the one behind which no further block
begins (`isLongestPrefix_iff`).
-/

namespace RecipeEngine

/-- A part of a recipe that is complete in itself. -/
inductive Block where
  | single (s : Step)
  | loop (identifier : String) (iterations : UInt32) (body : List Step)
  deriving DecidableEq

namespace Block

def instructions : Block → Program
  | .single s => [.step s]
  | .loop identifier iterations body =>
      .loopStart identifier iterations :: (body.map .step ++ [.loopEnd identifier])

theorem instructions_ne_nil (b : Block) : b.instructions ≠ [] := by
  cases b <;> simp [instructions]

theorem length_instructions_pos (b : Block) : 0 < b.instructions.length :=
  List.length_pos_iff.2 b.instructions_ne_nil

theorem body_append_inj {body body' : List Step} {identifier identifier' : String}
    {rest rest' : Program}
    (same : body.map .step ++ Instruction.loopEnd identifier :: rest =
      body'.map .step ++ Instruction.loopEnd identifier' :: rest') :
    body = body' ∧ rest = rest' := by
  -- Steps are no end markers, so both bodies end together.
  induction body generalizing body' with
  | nil =>
    cases body' with
    | nil =>
      simp only [List.map_nil, List.nil_append, List.cons.injEq] at same
      exact ⟨rfl, same.2⟩
    | cons s' body' => simp at same
  | cons s body ih =>
    cases body' with
    | nil => simp at same
    | cons s' body' =>
      simp only [List.map_cons, List.cons_append, List.cons.injEq, Instruction.step.injEq] at same
      obtain ⟨bodies, rests⟩ := ih same.2
      exact ⟨by rw [same.1, bodies], rests⟩

/-- No block is the beginning of another one. -/
theorem instructions_append_inj {b b' : Block} {rest rest' : Program}
    (same : b.instructions ++ rest = b'.instructions ++ rest') : b = b' ∧ rest = rest' := by
  cases b with
  | single s =>
    cases b' with
    | single s' => simpa [instructions] using same
    | loop identifier' iterations' body' => simp [instructions] at same
  | loop identifier iterations body =>
    cases b' with
    | single s' => simp [instructions] at same
    | loop identifier' iterations' body' =>
      simp only [instructions, List.cons_append, List.append_assoc, List.nil_append,
        List.cons.injEq, Instruction.loopStart.injEq] at same
      obtain ⟨⟨rfl, rfl⟩, bodies⟩ := same
      obtain ⟨rfl, rests⟩ := body_append_inj bodies
      exact ⟨rfl, rests⟩

end Block

namespace Program

/-- The recipe that consists of a row of blocks. -/
def ofBlocks (bs : List Block) : Program := bs.flatMap Block.instructions

def IsWellFormed (p : Program) : Prop := ∃ bs, p = ofBlocks bs

/-- `k` is the length of the longest prefix of `p` that is well-formed. -/
structure IsLongestPrefix (p : Program) (k : Nat) : Prop where
  bound : k ≤ p.length
  wellFormed : IsWellFormed (p.take k)
  longest : ∀ j ≤ p.length, IsWellFormed (p.take j) → j ≤ k

/-- Whether no block begins at the front of a recipe. -/
def IsStuck (p : Program) : Prop := ∀ (b : Block) (rest : Program), p ≠ b.instructions ++ rest

@[simp] theorem ofBlocks_nil : ofBlocks [] = [] := rfl

@[simp] theorem ofBlocks_cons (b : Block) (bs : List Block) :
    ofBlocks (b :: bs) = b.instructions ++ ofBlocks bs := rfl

@[simp] theorem ofBlocks_append (bs bs' : List Block) :
    ofBlocks (bs ++ bs') = ofBlocks bs ++ ofBlocks bs' := by
  simp [ofBlocks]

theorem ofBlocks_singles (steps : List Step) :
    ofBlocks (steps.map .single) = steps.map .step := by
  induction steps with
  | nil => rfl
  | cons s steps ih => simp [ih, Block.instructions]

theorem length_le_length_ofBlocks (bs : List Block) : bs.length ≤ (ofBlocks bs).length := by
  induction bs with
  | nil => simp
  | cons b bs ih =>
    have positive := b.length_instructions_pos
    simp only [List.length_cons, ofBlocks_cons, List.length_append]
    omega

/-! ## One reading -/

/-- Of two readings of one recipe, each with a rest, the one with more blocks goes on where the
other one stops. -/
theorem ofBlocks_append_inj {bs bs' : List Block} {rest rest' : Program}
    (same : ofBlocks bs ++ rest = ofBlocks bs' ++ rest') (fewer : bs.length ≤ bs'.length) :
    ∃ more, bs' = bs ++ more ∧ rest = ofBlocks more ++ rest' := by
  induction bs generalizing bs' with
  | nil => exact ⟨bs', rfl, by simpa using same⟩
  | cons b bs ih =>
    cases bs' with
    | nil => simp at fewer
    | cons b' bs' =>
      simp only [ofBlocks_cons, List.append_assoc] at same
      obtain ⟨rfl, tails⟩ := Block.instructions_append_inj same
      obtain ⟨more, rfl, rests⟩ := ih tails (by simpa using fewer)
      exact ⟨more, rfl, rests⟩

theorem ofBlocks_eq_nil {bs : List Block} (empty : ofBlocks bs = []) : bs = [] := by
  have short := length_le_length_ofBlocks bs
  rw [empty] at short
  exact List.length_eq_zero_iff.1 (Nat.le_zero.1 short)

theorem ofBlocks_injective {bs bs' : List Block} (same : ofBlocks bs = ofBlocks bs') :
    bs = bs' := by
  have padded : ofBlocks bs ++ [] = ofBlocks bs' ++ [] := by rw [same]
  rcases Nat.le_total bs.length bs'.length with fewer | fewer
  · obtain ⟨more, rfl, rest⟩ := ofBlocks_append_inj padded fewer
    have none_more : more = [] := ofBlocks_eq_nil (by simpa using rest.symm)
    rw [none_more, List.append_nil]
  · obtain ⟨more, rfl, rest⟩ := ofBlocks_append_inj padded.symm fewer
    have none_more : more = [] := ofBlocks_eq_nil (by simpa using rest.symm)
    rw [none_more, List.append_nil]

/-! ## The longest well-formed prefix -/

/-- Every recipe is a row of blocks and a rest at whose front no block begins. -/
theorem exists_ofBlocks_append (p : Program) :
    ∃ bs rest, p = ofBlocks bs ++ rest ∧ IsStuck rest := by
  -- By the length: a block may take many instructions off the front at once.
  induction length : p.length using Nat.strongRecOn generalizing p with
  | _ n ih =>
    by_cases begins : ∃ (b : Block) (rest : Program), p = b.instructions ++ rest
    · obtain ⟨b, rest, rfl⟩ := begins
      have positive := b.length_instructions_pos
      rw [List.length_append] at length
      obtain ⟨bs, rest', rfl, stuck⟩ := ih rest.length (by omega) rest rfl
      exact ⟨b :: bs, rest', by simp, stuck⟩
    · exact ⟨[], p, rfl, fun b rest same => begins ⟨b, rest, same⟩⟩

/-- A well-formed prefix is the longest one if and only if no block begins behind it. -/
theorem isLongestPrefix_iff (bs : List Block) (rest : Program) :
    IsLongestPrefix (ofBlocks bs ++ rest) (ofBlocks bs).length ↔ IsStuck rest := by
  constructor
  · rintro ⟨-, -, longest⟩ b rest' rfl
    have positive := b.length_instructions_pos
    have further := longest (ofBlocks (bs ++ [b])).length (by simp)
      ⟨bs ++ [b], by simp [← List.append_assoc]⟩
    rw [ofBlocks_append, List.length_append, ofBlocks_cons, List.length_append] at further
    omega
  · intro stuck
    refine ⟨by simp, ⟨bs, by simp⟩, ?_⟩
    rintro j bound ⟨bs', prefixed⟩
    -- Were the prefix longer, its reading would go on with a block at the front of the rest.
    have split : ofBlocks bs ++ rest = ofBlocks bs' ++ (ofBlocks bs ++ rest).drop j := by
      rw [← prefixed, List.take_append_drop]
    have length : j = (ofBlocks bs').length := by
      rw [← prefixed, List.length_take_of_le bound]
    rcases Nat.le_total bs'.length bs.length with fewer | fewer
    · obtain ⟨more, rfl, -⟩ := ofBlocks_append_inj split.symm fewer
      simp [length]
    · obtain ⟨more, rfl, rests⟩ := ofBlocks_append_inj split fewer
      cases more with
      | nil => simp [length]
      | cons b more =>
        rw [ofBlocks_cons, List.append_assoc] at rests
        exact absurd rests (stuck b _)

theorem IsLongestPrefix.exists_split {p : Program} {k : Nat} (longest : p.IsLongestPrefix k) :
    ∃ bs rest, p = ofBlocks bs ++ rest ∧ k = (ofBlocks bs).length ∧ IsStuck rest := by
  obtain ⟨bs, prefixed⟩ := longest.wellFormed
  have length : k = (ofBlocks bs).length := by
    rw [← prefixed, List.length_take_of_le longest.bound]
  have split : p = ofBlocks bs ++ p.drop k := by rw [← prefixed, List.take_append_drop]
  refine ⟨bs, p.drop k, split, length, ?_⟩
  rw [← isLongestPrefix_iff bs, ← split, ← length]
  exact longest

theorem exists_isLongestPrefix (p : Program) : ∃ k, p.IsLongestPrefix k := by
  obtain ⟨bs, rest, rfl, stuck⟩ := exists_ofBlocks_append p
  exact ⟨_, (isLongestPrefix_iff bs rest).2 stuck⟩

end Program

end RecipeEngine
