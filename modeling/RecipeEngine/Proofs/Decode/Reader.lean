import Mathlib.Data.List.Forall2
import Mathlib.Data.List.TakeWhile
import RecipeEngine.Decode.Scalar
import RecipeEngine.Proofs.Json.Grammar

/-!
# When readers succeed

A reader that is made of others succeeds exactly if each of them does, one after the other
(`bind_eq_ok_iff`), and a reader that reports a fault does not succeed.  Blanks are what
`skipBlanks` passes over.
-/

namespace RecipeEngine.Decode

open Json

/-! ## Steps one after the other -/

section

variable {ε α β : Type}

@[simp] theorem ok_bind (a : α) (f : α → Except ε β) : (Except.ok a >>= f) = f a := rfl

@[simp] theorem error_bind (e : ε) (f : α → Except ε β) : (Except.error e >>= f) = .error e := rfl

theorem bind_eq_ok_iff {x : Except ε α} {f : α → Except ε β} {b : β} :
    (x >>= f) = .ok b ↔ ∃ a, x = .ok a ∧ f a = .ok b := by
  cases x <;> simp

@[simp] theorem map_ok (f : α → β) (a : α) : (Except.ok a : Except ε α).map f = .ok (f a) := rfl

theorem map_eq_ok_iff {x : Except ε α} {f : α → β} {b : β} :
    x.map f = .ok b ↔ ∃ a, x = .ok a ∧ f a = b := by
  cases x <;> simp [Except.map]

theorem mapM_eq_ok_iff {f : α → Except ε β} {as : List α} {bs : List β} :
    as.mapM f = .ok bs ↔ List.Forall₂ (fun a b => f a = .ok b) as bs := by
  induction as generalizing bs with
  | nil => cases bs <;> simp [pure, Except.pure]
  | cons a as ih =>
    simp only [List.mapM_cons, bind_eq_ok_iff, ih]
    constructor
    · rintro ⟨b, here, bs', later, same⟩
      cases same
      exact .cons here later
    · rintro (_ | ⟨here, later⟩)
      exact ⟨_, here, _, later, rfl⟩

end

/-! ## Faults -/

section

variable {α : Type} {cs : List Char} {a : α × List Char}

@[simp] theorem failAt_ne_ok {e : SyntaxError} : failAt e cs ≠ .ok a := nofun

@[simp] theorem failPeeking_ne_ok {e : SyntaxError} : failPeeking e cs ≠ .ok a := nofun

@[simp] theorem failShape_ne_ok {e : ShapeError} : failShape e cs ≠ .ok a := nofun

@[simp] theorem failUnplaced_ne_ok {e : ShapeError} : failUnplaced e cs ≠ .ok a := nofun

@[simp] theorem failHex_ne_ok : failHex cs ≠ .ok a := by
  unfold failHex
  split
  · exact failAt_ne_ok
  · nofun

end

/-! ## Blanks -/

theorem isJsonBlank_iff {c : Char} : isJsonBlank c = true ↔ c ∈ [' ', '\n', '\t', '\r'] := by
  simp only [isJsonBlank, Bool.or_eq_true, beq_iff_eq, or_assoc, List.mem_cons,
    List.not_mem_nil, or_false]

theorem areBlank_nil : AreBlank [] := List.forall_mem_nil _

theorem areBlank_append {before after : List Char} (first : AreBlank before)
    (second : AreBlank after) : AreBlank (before ++ after) :=
  List.forall_mem_append.2 ⟨first, second⟩

theorem skipBlanks_append {blanks : List Char} (blank : AreBlank blanks) (cs : List Char) :
    skipBlanks (blanks ++ cs) = skipBlanks cs :=
  List.dropWhile_append_of_pos fun c member => isJsonBlank_iff.2 (blank c member)

theorem skipBlanks_cons {c : Char} (marked : isJsonBlank c = false) (cs : List Char) :
    skipBlanks (c :: cs) = c :: cs :=
  List.dropWhile_cons_of_neg (by simp [marked])

/-- What is passed over is blank. -/
theorem exists_blanks (cs : List Char) :
    ∃ blanks, AreBlank blanks ∧ cs = blanks ++ skipBlanks cs := by
  refine ⟨cs.takeWhile isJsonBlank, ?_, List.takeWhile_append_dropWhile.symm⟩
  intro c member
  exact isJsonBlank_iff.1 (List.mem_takeWhile_imp member)

theorem areBlank_of_skipBlanks {cs : List Char} (ended : skipBlanks cs = []) : AreBlank cs := by
  obtain ⟨blanks, blank, split⟩ := exists_blanks cs
  rw [ended, List.append_nil] at split
  rwa [split]

theorem skipBlanks_of_areBlank {cs : List Char} (blank : AreBlank cs) : skipBlanks cs = [] := by
  have skipped := skipBlanks_append blank []
  rwa [List.append_nil] at skipped

/-- A text is blanks and then what is not passed over, which does not begin with a blank. -/
theorem exists_of_skipBlanks {cs rest : List Char} {c : Char}
    (skipped : skipBlanks cs = c :: rest) :
    ∃ blanks, AreBlank blanks ∧ cs = blanks ++ c :: rest ∧ isJsonBlank c = false := by
  obtain ⟨blanks, blank, split⟩ := exists_blanks cs
  rw [skipped] at split
  refine ⟨blanks, blank, split, ?_⟩
  have marked := List.head?_dropWhile_not isJsonBlank cs
  rw [show cs.dropWhile isJsonBlank = c :: rest from skipped] at marked
  simpa using marked

end RecipeEngine.Decode
