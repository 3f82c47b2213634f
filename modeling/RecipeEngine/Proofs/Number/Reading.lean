import RecipeEngine.Proofs.Number.Nearest

/-!
# Which numerals can be read

A significand of 64 bits can be divided by any power of ten, since that makes nothing greater
(`Binary64.exists_scaled?_negSucc`).  Multiplied by a power of ten it may go beyond the finite
numbers although the number nearest to the product is finite, but a significand of at most
eighteen digits does so only where that number is the greatest one
(`Binary64.exists_scaled?`).
-/

namespace RecipeEngine.Number.Binary64

/-! ## Order -/

theorem rankOf_mono {m n : Nat} (le : m ≤ n) : rankOf m ≤ rankOf n :=
  nearestRank_mono (by decide) (Nat.mul_le_mul_right one le)

theorem one_pos : 0 < one := by decide +kernel

theorem product_mono {r r' s s' : Nat} (le : r ≤ r') (le' : s ≤ s') :
    product r s ≤ product r' s' :=
  nearestRank_mono one_pos (Nat.mul_le_mul (unitsOf_mono le) (unitsOf_mono le'))

theorem powerOfTen_mono {j k : Nat} (le : j ≤ k) : powerOfTen j ≤ powerOfTen k :=
  rankOf_mono (Nat.pow_le_pow_right (by decide) le)

theorem one_le_unitsOf_powerOfTen (k : Nat) : one ≤ unitsOf (powerOfTen k) := by
  have exact : unitsOf (rankOf 1) = one := by decide +kernel
  rw [← exact]
  exact unitsOf_mono (rankOf_mono (Nat.pow_pos (by decide)))

theorem quotient_powerOfTen_le (r k : Nat) : quotient r (powerOfTen k) ≤ r := by
  have atLeast := one_le_unitsOf_powerOfTen k
  calc quotient r (powerOfTen k)
      ≤ nearestRank (unitsOf r) 1 := by
        refine nearestRank_le (Nat.lt_of_lt_of_le one_pos atLeast) (by decide) ?_
        rw [Nat.mul_one]
        exact Nat.mul_le_mul_left _ atLeast
    _ = r := nearestRank_unitsOf r

theorem divideDown_le (rounds r : Nat) : divideDown rounds r ≤ r := by
  induction rounds generalizing r with
  | zero => exact Nat.le_refl r
  | succ rounds ih =>
    unfold divideDown
    split
    next => exact Nat.le_refl r
    next => exact Nat.le_trans (ih _) (quotient_powerOfTen_le r maxPower)

/-! ## Finite results -/

theorem exists_finite? {r : Nat} (finite : r < finiteRanks) : ∃ rank, finite? r = some rank :=
  ⟨⟨r, finite⟩, dif_pos finite⟩

variable {c : Nat}

theorem exists_scaled?_negSucc (fits : c ≤ maxSignificand) (k : Nat) :
    ∃ rank, scaled? c (.negSucc k) = some rank := by
  have finite : rankOf maxSignificand < finiteRanks := by decide +kernel
  refine exists_finite? (Nat.lt_of_le_of_lt ?_ finite)
  calc quotient (divideDown (k / maxPower) (rankOf c)) (powerOfTen (k % maxPower + 1))
      ≤ divideDown (k / maxPower) (rankOf c) := quotient_powerOfTen_le _ _
    _ ≤ rankOf c := divideDown_le _ _
    _ ≤ rankOf maxSignificand := rankOf_mono fits

/-- The value of the numeral of the greatest finite number. -/
def greatest : Nat := 17976931348623157 * Nat.pow 10 292

theorem product_greatest_lt : ∀ i < 18,
    product (rankOf (greatest / Nat.pow 10 (291 + i))) (powerOfTen (291 + i)) < finiteRanks := by
  decide +kernel

theorem product_lt {k : Nat} (short : c ≤ Nat.pow 10 18) (power : k < 309)
    (within : c * Nat.pow 10 k ≤ greatest) :
    product (rankOf c) (powerOfTen k) < finiteRanks := by
  by_cases moderate : k ≤ 290
  · have most : product (rankOf (Nat.pow 10 18)) (powerOfTen 290) < finiteRanks := by
      decide +kernel
    exact Nat.lt_of_le_of_lt (product_mono (rankOf_mono short) (powerOfTen_mono moderate)) most
  · obtain ⟨i, rfl⟩ := Nat.exists_eq_add_of_le (Nat.not_le.1 moderate)
    have most : c ≤ greatest / Nat.pow 10 (291 + i) :=
      (Nat.le_div_iff_mul_le (Nat.pow_pos (by decide))).2 within
    refine Nat.lt_of_le_of_lt ?_ (product_greatest_lt i (by omega))
    exact product_mono (rankOf_mono most) (Nat.le_refl _)

theorem rankOf_eq_of_nearest? {k : Nat} {r : Fin finiteRanks} (positive : 0 < c)
    (near : Decimal.nearest? ⟨c, .ofNat k⟩ = some r) :
    k < 309 ∧ rankOf (c * Nat.pow 10 k) = r := by
  have moderate := Decimal.order_lt_of_nearest? positive near
  have order : Decimal.order ⟨c, .ofNat k⟩ = (digits c).length - 1 + (k : Int) := rfl
  have nonempty := List.length_pos_iff.2 (digits_ne_nil c)
  have notLarge : ¬ 309 ≤ Decimal.order ⟨c, .ofNat k⟩ := Int.not_le.2 moderate
  have notSmall : ¬ Decimal.order ⟨c, .ofNat k⟩ < -325 := by omega
  have notNegative : ¬ Int.ofNat k < 0 := Int.not_lt.2 (Int.natCast_nonneg k)
  refine ⟨by omega, ?_⟩
  rw [Decimal.nearest?, if_neg (Nat.ne_of_gt positive), if_neg notLarge, if_neg notSmall,
    Decimal.unitRatio, if_neg notNegative] at near
  rw [nearest?, finite?] at near
  split at near
  next finite =>
    cases near
    rfl
  next => cases near

/-- A numeral with at most eighteen digits can be read if there is a finite number nearest to it
that is not the greatest one. -/
theorem exists_scaled? {e : Int} {r : Fin finiteRanks} (positive : 0 < c)
    (short : c ≤ Nat.pow 10 18) (near : Decimal.nearest? ⟨c, e⟩ = some r)
    (notLast : r.val < finiteRanks - 1) : ∃ rank, scaled? c e = some rank := by
  cases e with
  | negSucc k =>
    have fits : Nat.pow 10 18 ≤ maxSignificand := by decide
    exact exists_scaled?_negSucc (Nat.le_trans short fits) k
  | ofNat k =>
    obtain ⟨power, rank⟩ := rankOf_eq_of_nearest? positive near
    have within : c * Nat.pow 10 k ≤ greatest := by
      refine Nat.not_lt.1 fun beyond => Nat.not_lt.2 ?_ notLast
      have last : rankOf greatest = finiteRanks - 1 := by decide +kernel
      rw [← last, ← rank]
      exact rankOf_mono (Nat.le_of_lt beyond)
    rw [scaled?, if_pos (show k ≤ maxPower from Nat.le_of_lt_succ power)]
    exact exists_finite? (product_lt short power within)

end RecipeEngine.Number.Binary64
