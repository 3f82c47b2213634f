import Mathlib.Algebra.Group.Nat.Defs
import RecipeEngine.Number.Reading

/-!
# Rounding to a rank

How many bits of a quotient are cut off is settled by its binade, and from the binade on rounding
is one formula (`nearestRank_of_inBinade`).  So rounding keeps the order of quotients
(`nearestRank_le`), and what differs from a magnitude by less than one part in `2 ^ 54` is rounded
to it (`nearestRank_of_near`), the magnitude itself included (`nearestRank_unitsOf`).
-/

namespace RecipeEngine.Number.Binary64

/-! ## Whole numbers -/

/-- Only the value of a quotient counts. -/
theorem roundHalfEven_scale {t : Nat} (positive : 0 < t) (num den : Nat) :
    roundHalfEven (num * t) (den * t) = roundHalfEven num den := by
  have twice : 2 * (num * t % (den * t)) = 2 * (num % den) * t := by
    rw [Nat.mul_mod_mul_right, Nat.mul_assoc]
  simp only [roundHalfEven, twice, Nat.mul_div_mul_right _ _ positive,
    Nat.mul_lt_mul_right positive]

section

variable {num num' den m : Nat}

/-- What is nearer to a whole number than one half is rounded to it. -/
theorem roundHalfEven_eq (above : 2 * (m * den) < 2 * num + den)
    (below : 2 * num < 2 * (m * den) + den) : roundHalfEven num den = m := by
  have split := Nat.div_add_mod num den
  by_cases reached : m * den ≤ num
  · have quotient : num / den = m := by
      refine Nat.div_eq_of_lt_le reached ?_
      rw [Nat.succ_mul]
      omega
    rw [quotient, Nat.mul_comm] at split
    unfold roundHalfEven
    rw [quotient, if_pos (by omega)]
  · obtain ⟨k, rfl⟩ : ∃ k, m = k + 1 :=
      Nat.exists_eq_succ_of_ne_zero (by rintro rfl; simp at reached)
    have grown : (k + 1) * den = k * den + den := Nat.succ_mul k den
    have quotient : num / den = k := Nat.div_eq_of_lt_le (by omega) (by omega)
    rw [quotient, Nat.mul_comm] at split
    unfold roundHalfEven
    rw [quotient, if_neg (by omega), if_pos (by omega)]

theorem roundHalfEven_mul (m : Nat) (positive : 0 < den) : roundHalfEven (m * den) den = m :=
  roundHalfEven_eq (by omega) (by omega)

theorem roundHalfEven_cases (num den : Nat) :
    (2 * (num % den) < den ∧ roundHalfEven num den = num / den) ∨
      (den < 2 * (num % den) ∧ roundHalfEven num den = num / den + 1) ∨
      (2 * (num % den) = den ∧ roundHalfEven num den = num / den + num / den % 2) := by
  unfold roundHalfEven
  obtain less | same | more := Nat.lt_trichotomy (2 * (num % den)) den
  · exact .inl ⟨less, if_pos less⟩
  · refine .inr (.inr ⟨same, ?_⟩)
    dsimp only
    rw [if_neg (by omega), if_neg (by omega)]
  · refine .inr (.inl ⟨more, ?_⟩)
    dsimp only
    rw [if_neg (by omega), if_pos more]

theorem roundHalfEven_mono (le : num ≤ num') : roundHalfEven num den ≤ roundHalfEven num' den := by
  have quotients : num / den ≤ num' / den := Nat.div_le_div_right le
  have remainders : num / den = num' / den → num % den ≤ num' % den := by
    intro same
    have split := Nat.div_add_mod num den
    have split' := Nat.div_add_mod num' den
    rw [same] at split
    omega
  have cases := roundHalfEven_cases num den
  have cases' := roundHalfEven_cases num' den
  omega

end

/-! ## Binades -/

/-- A quotient of which `p` bits are cut off: a significand of at most 53 bits is left, and of not
less unless nothing is cut off. -/
structure InBinade (num den p : Nat) : Prop where
  below : num < 2 ^ 53 * (den * 2 ^ p)
  above : p ≠ 0 → 2 ^ 52 * (den * 2 ^ p) ≤ num

section

variable {num num' den p : Nat}

theorem exists_inBinade (num : Nat) (positive : 0 < den) : ∃ p, InBinade num den p := by
  by_cases small : num / den < 2 ^ 53
  · refine ⟨0, ?_, fun nonzero => absurd rfl nonzero⟩
    rw [Nat.pow_zero, Nat.mul_one]
    exact (Nat.div_lt_iff_lt_mul positive).1 small
  · have nonzero : num / den ≠ 0 := by omega
    have least : 53 ≤ (num / den).log2 := (Nat.le_log2 nonzero).2 (Nat.not_lt.1 small)
    obtain ⟨low, high⟩ := (Nat.log2_eq_iff nonzero).1 rfl
    have split : (num / den).log2 = 52 + ((num / den).log2 - 52) := by omega
    rw [split, Nat.pow_add] at low
    rw [split, Nat.add_right_comm, Nat.pow_add] at high
    rw [Nat.div_lt_iff_lt_mul positive] at high
    rw [Nat.le_div_iff_mul_le positive] at low
    refine ⟨(num / den).log2 - 52, ?_, fun _ => ?_⟩
    · rwa [Nat.mul_comm den, ← Nat.mul_assoc]
    · rwa [Nat.mul_comm den, ← Nat.mul_assoc]

theorem nearestRank_of_inBinade (positive : 0 < den) (binade : InBinade num den p) :
    nearestRank num den = p * significands + roundHalfEven num (den * 2 ^ p) := by
  have shift : (num / den).log2 + 1 - 53 = p := by
    have below : num / den < 2 ^ (53 + p) := by
      rw [Nat.div_lt_iff_lt_mul positive, Nat.pow_add, Nat.mul_assoc, Nat.mul_comm (2 ^ p)]
      exact binade.below
    by_cases isZero : num / den = 0
    · by_cases noShift : p = 0
      · rw [isZero, noShift]
        rfl
      · have above := binade.above noShift
        rw [Nat.mul_left_comm] at above
        have quotient := (Nat.le_div_iff_mul_le positive).2 (Nat.mul_comm den _ ▸ above)
        rw [isZero] at quotient
        exact absurd quotient (Nat.not_le.2 (Nat.mul_pos (by decide) (Nat.two_pow_pos p)))
    · have most := (Nat.log2_lt isZero).2 below
      by_cases noShift : p = 0
      · omega
      · have above := binade.above noShift
        rw [Nat.mul_left_comm] at above
        have quotient := (Nat.le_div_iff_mul_le positive).2 (Nat.mul_comm den _ ▸ above)
        rw [← Nat.pow_add] at quotient
        have least := (Nat.le_log2 isZero).2 quotient
        omega
  rw [nearestRank, shift, Nat.shiftLeft_eq]

/-- The significand that is left after rounding: it may just reach the next binade. -/
theorem InBinade.significand (positive : 0 < den) (binade : InBinade num den p) :
    roundHalfEven num (den * 2 ^ p) ≤ 2 ^ 53 ∧
      (p ≠ 0 → 2 ^ 52 ≤ roundHalfEven num (den * 2 ^ p)) := by
  have width : 0 < den * 2 ^ p := Nat.mul_pos positive (Nat.two_pow_pos p)
  refine ⟨?_, fun cut => ?_⟩
  · calc roundHalfEven num (den * 2 ^ p)
        ≤ roundHalfEven (2 ^ 53 * (den * 2 ^ p)) (den * 2 ^ p) :=
          roundHalfEven_mono (Nat.le_of_lt binade.below)
      _ = 2 ^ 53 := roundHalfEven_mul _ width
  · calc 2 ^ 52 = roundHalfEven (2 ^ 52 * (den * 2 ^ p)) (den * 2 ^ p) :=
          (roundHalfEven_mul _ width).symm
      _ ≤ roundHalfEven num (den * 2 ^ p) := roundHalfEven_mono (binade.above cut)

/-! ## Order -/

theorem nearestRank_mono (positive : 0 < den) (le : num ≤ num') :
    nearestRank num den ≤ nearestRank num' den := by
  obtain ⟨p, binade⟩ := exists_inBinade num positive
  obtain ⟨p', binade'⟩ := exists_inBinade num' positive
  have bounds := binade.significand positive
  have bounds' := binade'.significand positive
  rw [nearestRank_of_inBinade positive binade, nearestRank_of_inBinade positive binade']
  obtain before | rfl | after := Nat.lt_trichotomy p p'
  · have reached := bounds'.2 (by omega)
    unfold significands
    omega
  · exact Nat.add_le_add_left (roundHalfEven_mono le) _
  · -- A smaller quotient is in no later binade.
    obtain ⟨k, rfl⟩ : ∃ k, p = p' + (k + 1) := ⟨p - p' - 1, by omega⟩
    have above := binade.above (by omega)
    have grown : den * 2 ^ p' * 2 ≤ den * 2 ^ (p' + (k + 1)) := by
      rw [Nat.mul_assoc, ← Nat.pow_succ]
      exact Nat.mul_le_mul_left _ (Nat.pow_le_pow_right (by decide) (by omega))
    have below := binade'.below
    omega

theorem nearestRank_scale {t : Nat} (positive : 0 < t) (num den : Nat) :
    nearestRank (num * t) (den * t) = nearestRank num den := by
  have shifted (s : Nat) : (den * t) <<< s = (den <<< s) * t := by
    rw [Nat.shiftLeft_eq, Nat.shiftLeft_eq, Nat.mul_right_comm]
  simp only [nearestRank, Nat.mul_div_mul_right _ _ positive, shifted,
    roundHalfEven_scale positive]

theorem nearest?_scale {t : Nat} (positive : 0 < t) (num den : Nat) :
    nearest? (num * t) (den * t) = nearest? num den := by
  simp only [nearest?, nearestRank_scale positive]

/-- Rounding keeps the order of quotients. -/
theorem nearestRank_le {a b c d : Nat} (positive : 0 < b) (positive' : 0 < d)
    (le : a * d ≤ c * b) : nearestRank a b ≤ nearestRank c d := by
  rw [← nearestRank_scale positive' a b, ← nearestRank_scale positive c d, Nat.mul_comm d b]
  exact nearestRank_mono (Nat.mul_pos positive positive') le

end

/-! ## Magnitudes -/

/-- A rank is a binary exponent and a significand, the first bit of which counts as one more
exponent. -/
theorem exists_significand (r : Nat) :
    ∃ s m, r = s * significands + m ∧ unitsOf r = m * 2 ^ s ∧ m < 2 ^ 53 ∧
      (s ≠ 0 → 2 ^ 52 ≤ m) := by
  unfold unitsOf
  split
  next small =>
    refine ⟨0, r, by omega, by omega, ?_, fun nonzero => absurd rfl nonzero⟩
    unfold significands at small
    omega
  next large =>
    have below : r % significands < significands := Nat.mod_lt r (by decide)
    refine ⟨scale r, r % significands + significands, ?_, Nat.shiftLeft_eq .., ?_, fun _ => ?_⟩
    · unfold scale significands at *
      omega
    · unfold significands at *
      omega
    · exact Nat.le_add_left _ _

/-- What differs from a magnitude by less than one part in `2 ^ 54` is rounded to it. -/
theorem nearestRank_of_near {r num den : Nat} (positive : 0 < den)
    (above : unitsOf r * den * (2 ^ 54 - 1) < num * 2 ^ 54)
    (below : num * 2 ^ 54 < unitsOf r * den * (2 ^ 54 + 1)) : nearestRank num den = r := by
  obtain ⟨s, m, rank, units, small, large⟩ := exists_significand r
  have width : 0 < den * 2 ^ s := Nat.mul_pos positive (Nat.two_pow_pos s)
  have value : unitsOf r * den = m * (den * 2 ^ s) := by
    rw [units, Nat.mul_assoc, Nat.mul_comm (2 ^ s)]
  have most : m * (den * 2 ^ s) ≤ (2 ^ 53 - 1) * (den * 2 ^ s) :=
    Nat.mul_le_mul_right _ (by omega)
  rw [value] at above below
  by_cases inBinade : s ≠ 0 → 2 ^ 52 * (den * 2 ^ s) ≤ num
  · have binade : InBinade num den s := ⟨by omega, inBinade⟩
    have rounded : roundHalfEven num (den * 2 ^ s) = m := roundHalfEven_eq (by omega) (by omega)
    rw [nearestRank_of_inBinade positive binade, rounded, rank]
  · -- Just below the least magnitude of a binade, the steps are half as wide.
    obtain ⟨cut, before⟩ := Classical.not_imp.1 inBinade
    have least := Nat.mul_le_mul_right (den * 2 ^ s) (large cut)
    have first : m = 2 ^ 52 := by
      refine Nat.le_antisymm (Nat.not_lt.1 fun more => ?_) (large cut)
      have next := Nat.mul_le_mul_right (den * 2 ^ s) (Nat.succ_le_of_lt more)
      rw [Nat.succ_mul] at next
      omega
    obtain ⟨q, rfl⟩ : ∃ q, s = q + 1 := Nat.exists_eq_succ_of_ne_zero cut
    subst first
    have half : den * 2 ^ (q + 1) = 2 * (den * 2 ^ q) := by
      rw [Nat.pow_succ, ← Nat.mul_assoc, Nat.mul_comm]
    have binade : InBinade num den q := ⟨by omega, fun _ => by omega⟩
    have rounded : roundHalfEven num (den * 2 ^ q) = 2 ^ 53 :=
      roundHalfEven_eq (by omega) (by omega)
    rw [nearestRank_of_inBinade positive binade, rounded, rank]
    unfold significands
    omega

theorem unitsOf_pos {r : Nat} (positive : 0 < r) : 0 < unitsOf r := by
  obtain ⟨s, m, rank, units, -, large⟩ := exists_significand r
  have nonzero : 0 < m := by
    by_cases cut : s = 0
    · rw [cut, Nat.zero_mul, Nat.zero_add] at rank
      rwa [← rank]
    · exact Nat.lt_of_lt_of_le (by decide) (large cut)
  rw [units]
  exact Nat.mul_pos nonzero (Nat.two_pow_pos s)

/-- A magnitude is the nearest one to itself. -/
theorem nearestRank_unitsOf (r : Nat) : nearestRank (unitsOf r) 1 = r := by
  by_cases isZero : r = 0
  · rw [isZero]
    decide
  · have positive := unitsOf_pos (Nat.pos_of_ne_zero isZero)
    exact nearestRank_of_near (by decide) (by omega) (by omega)

theorem unitsOf_mono {r r' : Nat} (le : r ≤ r') : unitsOf r ≤ unitsOf r' := by
  refine Nat.not_lt.1 fun less => ?_
  have ranks := nearestRank_mono (by decide : 0 < 1) (Nat.le_of_lt less)
  rw [nearestRank_unitsOf, nearestRank_unitsOf] at ranks
  rw [Nat.le_antisymm le ranks] at less
  exact Nat.lt_irrefl _ less

end RecipeEngine.Number.Binary64
