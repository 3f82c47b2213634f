import RecipeEngine.Number.Shortest
import RecipeEngine.Proofs.Number.Digits
import RecipeEngine.Proofs.Number.Rounding

/-!
# The number nearest to a decimal

The nearest magnitude depends on the value of a decimal only (`Decimal.nearest?_shift`), and the
magnitude nearest to what differs from a magnitude's exact value by less than one part in `2 ^ 54`
is that magnitude (`Decimal.nearest?_of_near`).
-/

namespace RecipeEngine.Number

namespace Decimal

/-! ## Values -/

theorem order_shift {c : Nat} (positive : 0 < c) (k : Nat) (e : Int) :
    order ⟨c * 10 ^ k, e⟩ = order ⟨c, e + k⟩ := by
  simp only [order, digits_mul_pow positive, List.length_append, List.length_replicate]
  omega

theorem nearest?_unitRatio_shift (c k : Nat) (e : Int) :
    Binary64.nearest? (unitRatio ⟨c * 10 ^ k, e⟩).1 (unitRatio ⟨c * 10 ^ k, e⟩).2 =
      Binary64.nearest? (unitRatio ⟨c, e + k⟩).1 (unitRatio ⟨c, e + k⟩).2 := by
  generalize unit : Binary64.one = one
  simp only [unitRatio, unit, Nat.pow_eq]
  by_cases below : e < 0
  · by_cases below' : e + k < 0
    · -- Both have a denominator.
      have split : e.natAbs = (e + k).natAbs + k := by omega
      rw [if_pos below, if_pos below', split, Nat.pow_add, Nat.mul_right_comm c,
        Binary64.nearest?_scale (Nat.pow_pos (by decide))]
    · have split : k = (e + k).natAbs + e.natAbs := by omega
      have powers : 10 ^ k = 10 ^ (e + k).natAbs * 10 ^ e.natAbs := by rw [← Nat.pow_add, ← split]
      have scaled := Binary64.nearest?_scale (Nat.pow_pos (by decide) : 0 < 10 ^ e.natAbs)
        (c * 10 ^ (e + k).natAbs * one) 1
      rw [Nat.one_mul] at scaled
      rw [if_pos below, if_neg below', powers, ← Nat.mul_assoc, Nat.mul_right_comm, scaled]
  · have below' : ¬ e + k < 0 := by omega
    have split : (e + k).natAbs = k + e.natAbs := by omega
    rw [if_neg below, if_neg below', split, Nat.pow_add, ← Nat.mul_assoc]

/-- The nearest magnitude is that of the value, however it is written. -/
theorem nearest?_shift (c k : Nat) (e : Int) :
    nearest? ⟨c * 10 ^ k, e⟩ = nearest? ⟨c, e + k⟩ := by
  by_cases isZero : c = 0
  · simp [nearest?, isZero]
  · have positive : 0 < c := Nat.pos_of_ne_zero isZero
    have nonzero : c * 10 ^ k ≠ 0 := Nat.ne_of_gt (Nat.mul_pos positive (Nat.pow_pos (by decide)))
    simp only [nearest?, isZero, nonzero, reduceIte, order_shift positive,
      nearest?_unitRatio_shift]

theorem order_lt_of_nearest? {d : Decimal} {r : Fin finiteRanks}
    (positive : 0 < d.coefficient) (near : d.nearest? = some r) : d.order < 309 := by
  rw [Decimal.nearest?, if_neg (Nat.ne_of_gt positive)] at near
  by_cases large : 309 ≤ d.order
  · rw [if_pos large] at near
    cases near
  · exact Int.not_le.1 large

theorem coefficient_pos_of_nearest? {d : Decimal} {r : Fin finiteRanks}
    (near : d.nearest? = some r) (positive : 0 < r.val) : 0 < d.coefficient := by
  refine Nat.pos_of_ne_zero fun isZero => ?_
  rw [Decimal.nearest?, if_pos isZero, Option.some.injEq] at near
  rw [← near] at positive
  exact Nat.lt_irrefl 0 positive

/-! ## Exact values -/

/-- The place of the first digit, where something is counted in units of `10 ^ -1074`. -/
theorem order_gridDecimal {count low high : Nat} (positive : 0 < low) (positive' : 0 < high)
    (large : Nat.pow 10 low ≤ count) (small : count < Nat.pow 10 high) :
    (low : Int) - 1074 ≤ order (gridDecimal count 0) ∧
      order (gridDecimal count 0) < (high : Int) - 1074 := by
  have least : low < (digits count).length := by
    rw [← Nat.not_le, length_digits_le_iff positive, Nat.not_lt]
    exact large
  have most : (digits count).length ≤ high := (length_digits_le_iff positive').2 small
  simp only [order, gridDecimal]
  omega

theorem fives_pos : 0 < fives := by decide +kernel

/-- The exact value of a magnitude is neither too large nor too small to be rounded. -/
theorem exactUnits_bounds {r : Fin finiteRanks} (positive : 0 < r.val) :
    2 * Nat.pow 10 749 ≤ exactUnits r ∧ 2 * exactUnits r ≤ Nat.pow 10 1383 := by
  have least : 2 * Nat.pow 10 749 ≤ fives := by decide +kernel
  have most : 2 * exactUnits (finiteRanks - 1) ≤ Nat.pow 10 1383 := by decide +kernel
  have upTo := Binary64.unitsOf_mono (Nat.le_sub_one_of_lt r.isLt)
  unfold exactUnits at *
  exact ⟨Nat.le_trans least (Nat.le_mul_of_pos_left fives (Binary64.unitsOf_pos positive)),
    Nat.le_trans (Nat.mul_le_mul_left 2 (Nat.mul_le_mul_right fives upTo)) most⟩

/-- The quotient that a number of units of `10 ^ -1074` stands for, in lower terms. -/
theorem nearest?_unitRatio_gridDecimal (count : Nat) :
    Binary64.nearest? (unitRatio (gridDecimal count 0)).1 (unitRatio (gridDecimal count 0)).2 =
      Binary64.nearest? count fives := by
  have one_pos : 0 < Binary64.one := by decide +kernel
  have exponent : (gridDecimal count 0).exponent = ((0 : Nat) : Int) - 1074 := rfl
  have negative : ((0 : Nat) : Int) - 1074 < 0 := by decide
  have tens : Nat.pow 10 (((0 : Nat) : Int) - 1074).natAbs = fives * Binary64.one := by
    decide +kernel
  rw [unitRatio, exponent, if_pos negative, tens]
  exact Binary64.nearest?_scale one_pos count fives

/-- What differs from the exact value of a magnitude by less than one part in `2 ^ 54` is rounded
to that magnitude. -/
theorem nearest?_of_near {r : Fin finiteRanks} (positive : 0 < r.val) {count : Nat}
    (above : exactUnits r * (2 ^ 54 - 1) < count * 2 ^ 54)
    (below : count * 2 ^ 54 < exactUnits r * (2 ^ 54 + 1)) :
    nearest? (gridDecimal count 0) = some r := by
  have bounds {low high : Nat} (large : 2 * low ≤ exactUnits r)
      (small : 2 * exactUnits r ≤ high) : low ≤ count ∧ count < high := by omega
  obtain ⟨large, small⟩ := bounds (exactUnits_bounds positive).1 (exactUnits_bounds positive).2
  obtain ⟨least, most⟩ := order_gridDecimal (by decide) (by decide) large small
  have nonzero : (gridDecimal count 0).coefficient ≠ 0 := by
    show count ≠ 0
    omega
  have notLarge : ¬ 309 ≤ order (gridDecimal count 0) := by omega
  have notSmall : ¬ order (gridDecimal count 0) < -325 := by omega
  have rounded : Binary64.nearestRank count fives = r :=
    Binary64.nearestRank_of_near fives_pos above below
  rw [nearest?, if_neg nonzero, if_neg notLarge, if_neg notSmall,
    nearest?_unitRatio_gridDecimal, Binary64.nearest?, rounded, Binary64.finite?, dif_pos r.isLt]

end Decimal

end RecipeEngine.Number
