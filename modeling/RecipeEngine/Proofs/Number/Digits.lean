import Mathlib.Algebra.Group.Nat.Defs
import RecipeEngine.Proofs.Json.Grammar

/-!
# Rows of digits

Digits stand for the number they are the digits of, and a row of zeros behind them multiplies it by
a power of ten.  Of the digits of a numeral those are kept whose number fits 64 bits: that many are
gathered one by one (`gatherDigits_eq`), none is left out if all of them fit
(`Numeral.fitting_eq_self_iff`), and only zero has a significand that is zero
(`Numeral.significand_eq_zero_iff`).
-/

namespace RecipeEngine.Number

/-! ## The number that digits stand for -/

theorem ofDigits_digits (n : Nat) : ofDigits (digits n) = n := Nat.ofDigitChars_ten_toDigits

theorem digits_ne_nil (n : Nat) : digits n ≠ [] := Nat.toDigits_ne_nil

theorem isDigit_of_mem_digits {n : Nat} {c : Char} (member : c ∈ digits n) : c.isDigit = true :=
  Nat.isDigit_of_mem_toDigits (by decide) (by decide) member

theorem ofDigits_append (ds es : List Char) :
    ofDigits (ds ++ es) = 10 ^ es.length * ofDigits ds + ofDigits es :=
  (Nat.ofDigitChars_append 0).trans Nat.ofDigitChars_eq_ofDigitChars_zero

theorem ofDigits_replicate_zero (k : Nat) : ofDigits (List.replicate k '0') = 0 := by
  have zeros : Nat.ofDigitChars 10 (List.replicate k '0') 0 = 10 ^ k * 0 :=
    Nat.ofDigitChars_replicate_zero
  exact zeros.trans (Nat.mul_zero _)

/-- Zeros behind digits multiply by ten. -/
theorem ofDigits_append_zeros (ds : List Char) (k : Nat) :
    ofDigits (ds ++ List.replicate k '0') = ofDigits ds * 10 ^ k := by
  rw [ofDigits_append, ofDigits_replicate_zero, List.length_replicate, Nat.add_zero, Nat.mul_comm]

/-- Zeros in front of digits do not count. -/
theorem ofDigits_zeros_append (ds : List Char) (k : Nat) :
    ofDigits (List.replicate k '0' ++ ds) = ofDigits ds := by
  rw [ofDigits_append, ofDigits_replicate_zero, Nat.mul_zero, Nat.zero_add]

theorem digits_mul_pow {n : Nat} (positive : 0 < n) (k : Nat) :
    digits (n * 10 ^ k) = digits n ++ List.replicate k '0' := by
  induction k with
  | zero => rw [Nat.pow_zero, Nat.mul_one, List.replicate_zero, List.append_nil]
  | succ k ih =>
    have grown : 0 < n * 10 ^ k := Nat.mul_pos positive (Nat.pow_pos (by decide))
    have step : Nat.toDigits 10 (n * 10 ^ k) ++ Nat.toDigits 10 0 =
        Nat.toDigits 10 (10 * (n * 10 ^ k) + 0) :=
      Nat.toDigits_append_toDigits (by decide) grown (by decide)
    have shifted : n * 10 ^ (k + 1) = 10 * (n * 10 ^ k) + 0 := by
      rw [Nat.pow_succ, ← Nat.mul_assoc, Nat.mul_comm, Nat.add_zero]
    rw [digits, shifted, ← step, ← digits, ih, Nat.toDigits_zero, List.append_assoc,
      List.replicate_succ']

theorem length_digits_le_iff {n k : Nat} (positive : 0 < k) :
    (digits n).length ≤ k ↔ n < 10 ^ k :=
  Nat.length_toDigits_le_iff (by decide) positive

/-- The digits of a number other than zero do not begin with zero. -/
theorem head?_digits {n : Nat} (positive : 0 < n) : (digits n).head? ≠ some '0' := by
  induction n using Nat.strongRecOn with
  | ind n ih =>
    rw [digits, Nat.toDigits_eq_if (by decide)]
    split
    next small =>
      rw [List.head?_cons, ne_eq, Option.some.injEq, Nat.digitChar_eq_zero]
      omega
    next large =>
      have front := ih (n / 10) (by omega) (by omega)
      rw [digits] at front
      have nonempty : Nat.toDigits 10 (n / 10) ≠ [] := Nat.toDigits_ne_nil
      obtain ⟨d, ds, split⟩ := List.exists_cons_of_ne_nil nonempty
      rw [split] at front ⊢
      exact front

/-! ## Digits that are kept -/

open Json

theorem ofDigits_concat (ds : List Char) (d : Char) :
    ofDigits (ds ++ [d]) = 10 * ofDigits ds + (d.toNat - 48) := by
  rw [ofDigits, List.foldl_append]
  rfl

theorem ofDigits_le_append (ds es : List Char) : ofDigits ds ≤ ofDigits (ds ++ es) := by
  rw [ofDigits_append]
  have grown : 1 * ofDigits ds ≤ 10 ^ es.length * ofDigits ds :=
    Nat.mul_le_mul_right _ (Nat.pow_pos (by decide))
  omega

theorem toNat_le_of_isDigit {c : Char} (digit : c.isDigit = true) : c.toNat ≤ 57 := by
  simp only [Char.isDigit, Bool.and_eq_true, decide_eq_true_eq] at digit
  exact digit.2

theorem ofDigits_lt {ds : List Char} (digits : ∀ c ∈ ds, c.isDigit = true) :
    ofDigits ds < 10 ^ ds.length := by
  induction ds with
  | nil => exact Nat.one_pos
  | cons d ds ih =>
    obtain ⟨digit, later⟩ := List.forall_mem_cons.1 digits
    have first : ofDigits [d] ≤ 9 := by
      have := toNat_le_of_isDigit digit
      rw [← List.nil_append [d], ofDigits_concat, show ofDigits [] = 0 from rfl]
      omega
    calc ofDigits (d :: ds) = 10 ^ ds.length * ofDigits [d] + ofDigits ds :=
          ofDigits_append [d] ds
      _ < 10 ^ ds.length * 9 + 10 ^ ds.length :=
          Nat.add_lt_add_of_le_of_lt (Nat.mul_le_mul_left _ first) (ih later)
      _ = 10 ^ (ds.length + 1) := by rw [Nat.pow_succ, Nat.mul_succ _ 9]

theorem ofDigits_append_eq_zero_iff {ds es : List Char} :
    ofDigits (ds ++ es) = 0 ↔ ofDigits ds = 0 ∧ ofDigits es = 0 := by
  have positive : 10 ^ es.length ≠ 0 := Nat.ne_of_gt (Nat.pow_pos (by decide))
  rw [ofDigits_append, Nat.add_eq_zero_iff, Nat.mul_eq_zero]
  simp only [positive, false_or]

end RecipeEngine.Number

namespace RecipeEngine.Json.Numeral

open Number

theorem fitting_cons (front : List Char) (d : Char) (ds : List Char) :
    fitting front (d :: ds) =
      if ofDigits (front ++ [d]) ≤ maxSignificand then d :: fitting (front ++ [d]) ds else [] := by
  have split (k : Nat) : front ++ (d :: ds).take (k + 1) = front ++ [d] ++ ds.take k := by simp
  simp only [fitting, List.length_cons, List.range_succ_eq_map, List.countP_cons, List.countP_map,
    Function.comp_def, split, List.take_zero, List.append_nil, decide_eq_true_eq]
  by_cases fits : ofDigits (front ++ [d]) ≤ maxSignificand
  · simp only [fits, reduceIte, List.take_succ_cons]
  · -- A number that does not fit does not fit with more digits either.
    have none_fits (k : Nat) : ¬ ofDigits (front ++ [d] ++ ds.take (k + 1)) ≤ maxSignificand :=
      fun within => fits (Nat.le_trans (ofDigits_le_append _ _) within)
    simp only [fits, none_fits, reduceIte, decide_false, List.countP_false, Function.const,
      Nat.add_zero, List.take_zero]

theorem fitting_isPrefix (front ds : List Char) : fitting front ds <+: ds := List.take_prefix _ _

/-- All digits are kept just if their number fits. -/
theorem fitting_eq_self_iff {front ds : List Char} (fits : ofDigits front ≤ maxSignificand) :
    fitting front ds = ds ↔ ofDigits (front ++ ds) ≤ maxSignificand := by
  induction ds generalizing front with
  | nil => simpa [fitting] using fits
  | cons d ds ih =>
    rw [fitting_cons]
    by_cases fits' : ofDigits (front ++ [d]) ≤ maxSignificand
    · rw [if_pos fits', List.cons_inj_right, ih fits', List.append_assoc, List.singleton_append]
    · rw [if_neg fits']
      refine iff_of_false (List.cons_ne_nil _ _).symm fun within => fits' ?_
      refine Nat.le_trans (ofDigits_le_append _ ds) ?_
      rwa [List.append_assoc, List.singleton_append]

/-- No digit is left out behind a number that is zero. -/
theorem ofDigits_fitting_eq_zero_iff {front ds : List Char}
    (digits : ∀ c ∈ ds, c.isDigit = true) :
    ofDigits (front ++ fitting front ds) = 0 ↔ ofDigits (front ++ ds) = 0 := by
  constructor
  · intro isZero
    induction ds generalizing front with
    | nil => simpa [fitting] using isZero
    | cons d ds ih =>
      obtain ⟨digit, later⟩ := List.forall_mem_cons.1 digits
      have frontZero : ofDigits front = 0 := (ofDigits_append_eq_zero_iff.1 isZero).1
      have small := toNat_le_of_isDigit digit
      have fits : ofDigits (front ++ [d]) ≤ maxSignificand := by
        rw [ofDigits_concat, frontZero, maxSignificand]
        omega
      rw [fitting_cons, if_pos fits, ← List.singleton_append, ← List.append_assoc] at isZero
      rw [← List.singleton_append, ← List.append_assoc]
      exact ih later isZero
  · intro isZero
    obtain ⟨rest, split⟩ := fitting_isPrefix front ds
    rw [← split, ← List.append_assoc] at isZero
    exact (ofDigits_append_eq_zero_iff.1 isZero).1

theorem gatherDigits_eq (front ds : List Char) :
    gatherDigits (ofDigits front) ds =
      (ofDigits (front ++ fitting front ds), ds.drop (fitting front ds).length) := by
  induction ds generalizing front with
  | nil => simp [gatherDigits, fitting]
  | cons d ds ih =>
    simp only [gatherDigits, ← ofDigits_concat, fitting_cons]
    by_cases fits : ofDigits (front ++ [d]) ≤ maxSignificand
    · simp only [fits, reduceIte, ih, List.append_assoc, List.singleton_append, List.length_cons,
        List.drop_succ_cons]
    · simp only [fits, reduceIte, List.append_nil, List.length_nil, List.drop_zero]

/-! ## Significands -/

section

variable {n : Numeral}

theorem keptWhole_eq_iff : n.keptWhole = n.whole ↔ ofDigits n.whole ≤ maxSignificand :=
  @fitting_eq_self_iff [] n.whole (Nat.zero_le _)

theorem significand_eq_zero_iff (whole : ∀ c ∈ n.whole, c.isDigit = true)
    (fraction : ∀ c ∈ n.fraction.getD [], c.isDigit = true) :
    n.significand = 0 ↔ n.coefficient = 0 := by
  have wholeZero : ofDigits n.keptWhole = 0 ↔ ofDigits n.whole = 0 :=
    @ofDigits_fitting_eq_zero_iff [] n.whole whole
  calc n.significand = 0
      ↔ ofDigits (n.keptWhole ++ n.fraction.getD []) = 0 := ofDigits_fitting_eq_zero_iff fraction
    _ ↔ n.coefficient = 0 := by
      rw [coefficient, ofDigits_append_eq_zero_iff, ofDigits_append_eq_zero_iff, wholeZero]

theorem gatherDigits_whole (n : Numeral) :
    gatherDigits 0 n.whole = (ofDigits n.keptWhole, n.whole.drop n.keptWhole.length) :=
  gatherDigits_eq [] n.whole

theorem gatherDigits_fraction (n : Numeral) :
    gatherDigits (ofDigits n.keptWhole) (n.fraction.getD []) =
      (n.significand, (n.fraction.getD []).drop n.keptFraction.length) :=
  gatherDigits_eq n.keptWhole _

/-- The power of ten, counted by the digits that are left out. -/
theorem scale_eq (n : Numeral) :
    n.power + (n.whole.drop n.keptWhole.length).length -
        ((n.fraction.getD []).length -
          ((n.fraction.getD []).drop n.keptFraction.length).length : Nat) = n.scale := by
  have isPrefix := (fitting_isPrefix n.keptWhole (n.fraction.getD [])).length_le
  rw [← keptFraction] at isPrefix
  rw [scale, List.length_drop, List.length_drop, Nat.sub_sub_self isPrefix]

/-- The magnitude that all digits of a numeral make up. -/
def decimal (n : Numeral) : Decimal :=
  ⟨n.coefficient, n.power - (n.fraction.getD []).length⟩

/-- All digits of a numeral are kept if the number that they make up fits 64 bits, and then the
significand and its power of ten are that magnitude. -/
theorem decimal_eq_of_fits (fits : n.coefficient ≤ maxSignificand) :
    n.decimal = ⟨n.significand, n.scale⟩ := by
  have wholeKept : n.keptWhole = n.whole :=
    keptWhole_eq_iff.2 (Nat.le_trans (ofDigits_le_append _ _) fits)
  have fractionKept : n.keptFraction = n.fraction.getD [] := by
    rw [keptFraction, wholeKept]
    exact (fitting_eq_self_iff (Nat.le_trans (ofDigits_le_append _ _) fits)).2 fits
  simp [decimal, coefficient, significand, scale, wholeKept, fractionKept]

end

end RecipeEngine.Json.Numeral
