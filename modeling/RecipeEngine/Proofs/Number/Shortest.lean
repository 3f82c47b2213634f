import RecipeEngine.Proofs.Decode.Number
import RecipeEngine.Proofs.Number.Reading

/-!
# Numerals that are written

The numeral of a number is one of the grammar.  It has at most eighteen digits, which stand for a
decimal to which the number is the nearest one (`shortestDecimal_spec`,
`exists_numeral_layout`), and so it can always be read (`exists_numeral`).  What it is read as need
not be the number itself (`Binary64.reread`); only whole numbers are always read as themselves
(`exists_numeral_of_integer`).
-/

namespace RecipeEngine.Number

open Json

/-! ## The shortest decimal -/

theorem isNearest_iff {r : Fin finiteRanks} {d : Decimal} :
    isNearest r d = true ↔ d.nearest? = some r := by
  rw [isNearest, beq_iff_eq, Option.map_eq_some_iff]
  constructor
  · rintro ⟨rank, near, same⟩
    rw [near, Fin.ext same]
  · intro near
    exact ⟨r, near, rfl⟩

theorem choose?_cases {low high d : Decimal} {takeLow isLow isHigh : Bool}
    (chosen : choose? low high takeLow isLow isHigh = some d) :
    (d = low ∧ isLow = true) ∨ (d = high ∧ isHigh = true) := by
  unfold choose? at chosen
  split at chosen
  next =>
    cases chosen
    cases takeLow with
    | true => exact .inl ⟨rfl, rfl⟩
    | false => exact .inr ⟨rfl, rfl⟩
  next =>
    cases chosen
    exact .inl ⟨rfl, rfl⟩
  next =>
    cases chosen
    exact .inr ⟨rfl, rfl⟩
  next => cases chosen

theorem exists_choose? {low high : Decimal} {takeLow isLow isHigh : Bool}
    (either : isLow = true ∨ isHigh = true) :
    ∃ d, choose? low high takeLow isLow isHigh = some d := by
  obtain rfl | rfl := either
  · cases isHigh <;> exact ⟨_, rfl⟩
  · cases isLow <;> exact ⟨_, rfl⟩

theorem nearestOnGrid?_cases {r : Fin finiteRanks} {place : Nat} {d : Decimal}
    (found : nearestOnGrid? r place = some d) :
    d.nearest? = some r ∧ d.coefficient ≤ exactUnits r / 10 ^ place + 1 := by
  unfold nearestOnGrid? at found
  obtain ⟨rfl, nearest⟩ | ⟨rfl, nearest⟩ := choose?_cases found
  · exact ⟨isNearest_iff.1 nearest, Nat.le_succ _⟩
  · exact ⟨isNearest_iff.1 nearest, Nat.le_refl _⟩

/-- A point of a grid, counted in units of `10 ^ -1074`. -/
theorem nearest?_gridDecimal (count place : Nat) :
    (gridDecimal count place).nearest? = (gridDecimal (count * 10 ^ place) 0).nearest? := by
  have shifted := Decimal.nearest?_shift count place (((0 : Nat) : Int) - 1074)
  have exponent : ((0 : Nat) : Int) - 1074 + place = place - 1074 := by omega
  rw [exponent] at shifted
  exact shifted.symm

/-- With seventeen digits, half a step of the grid is less than one part in `2 ^ 54`, so the number
is the nearest one to one of the two points next to its exact value. -/
theorem exists_nearestOnGrid? {r : Fin finiteRanks} (positive : 0 < r.val) {place : Nat}
    (long : (digits (exactUnits r)).length = 17 + place) :
    ∃ d, nearestOnGrid? r place = some d := by
  have step : 10 ^ 16 * 10 ^ place ≤ exactUnits r := by
    have least := (length_digits_le_iff (n := exactUnits r) (by omega : 0 < 16 + place)).not.1
      (by omega)
    rwa [Nat.not_lt, Nat.pow_add] at least
  have split := Nat.div_add_mod (exactUnits r) (10 ^ place)
  have below : exactUnits r % 10 ^ place < 10 ^ place := Nat.mod_lt _ (Nat.pow_pos (by decide))
  refine exists_choose? ?_
  rw [isNearest_iff, isNearest_iff, Nat.pow_eq,
    nearest?_gridDecimal (exactUnits r / 10 ^ place),
    nearest?_gridDecimal (exactUnits r / 10 ^ place + 1), Nat.succ_mul, Nat.mul_comm]
  by_cases low : 2 * (exactUnits r % 10 ^ place) ≤ 10 ^ place
  · exact .inl (Decimal.nearest?_of_near positive (by omega) (by omega))
  · exact .inr (Decimal.nearest?_of_near positive (by omega) (by omega))

theorem length_digits_exactUnits {r : Fin finiteRanks} (positive : 0 < r.val) :
    17 ≤ (digits (exactUnits r)).length := by
  have large : 10 ^ 16 ≤ Nat.pow 10 749 := by decide +kernel
  have least := (Decimal.exactUnits_bounds positive).1
  have long := (length_digits_le_iff (n := exactUnits r) (by decide : 0 < 16)).not.2
  generalize Nat.pow 10 749 = power at large least
  omega

/-- A number is the nearest one to its shortest decimal, which has at most seventeen digits, or is
a power of ten with one more. -/
theorem shortestDecimal_spec {r : Fin finiteRanks} (positive : 0 < r.val) :
    (shortestDecimal r).nearest? = some r ∧ (shortestDecimal r).coefficient ≤ 10 ^ 17 := by
  have long := length_digits_exactUnits positive
  have most := (length_digits_le_iff (n := exactUnits r) (by omega)).1 (Nat.le_refl _)
  simp only [shortestDecimal]
  generalize isLength : (digits (exactUnits r)).length = length at *
  cases search : (List.range 17).findSome? fun k => nearestOnGrid? r (length - (k + 1)) with
  | none =>
    have split : length = 17 + (length - 17) := by omega
    obtain ⟨d, found⟩ := exists_nearestOnGrid? positive (isLength.trans split)
    have notFound := List.findSome?_eq_none_iff.1 search 16 (by simp)
    rw [found] at notFound
    cases notFound
  | some d =>
    obtain ⟨k, inRange, found⟩ := List.exists_of_findSome?_eq_some search
    obtain ⟨near, atMost⟩ := nearestOnGrid?_cases found
    refine ⟨near, Nat.le_trans atMost (Nat.div_lt_of_lt_mul (Nat.lt_of_lt_of_le most ?_))⟩
    rw [← Nat.pow_add]
    have within := List.mem_range.1 inRange
    exact Nat.pow_le_pow_right (by decide) (by omega)

/-- The digits of a number are those that are kept of them and then zeros. -/
theorem exists_zeros (ds : List Char) :
    ∃ k, ds = (ds.reverse.dropWhile (· == '0')).reverse ++ List.replicate k '0' := by
  have zeros : ∀ c ∈ ds.reverse.takeWhile (· == '0'), c = '0' := by
    intro c member
    simpa using List.mem_takeWhile_imp member
  refine ⟨(ds.reverse.takeWhile (· == '0')).length, ?_⟩
  calc ds = (ds.reverse.takeWhile (· == '0') ++ ds.reverse.dropWhile (· == '0')).reverse := by
        rw [List.takeWhile_append_dropWhile, List.reverse_reverse]
    _ = (ds.reverse.dropWhile (· == '0')).reverse ++
        (ds.reverse.takeWhile (· == '0')).reverse := List.reverse_append
    _ = _ := congrArg _ (by rw [← List.reverse_replicate, ← List.eq_replicate_of_mem zeros])

/-- The digits that are kept of a decimal stand for it at its order. -/
theorem significantDigits_spec {d : Decimal} (positive : 0 < d.coefficient) :
    ∃ (ds : List Char) (k : Nat), significantDigits d = (ds, d.order) ∧ ds ≠ [] ∧
      (∀ c ∈ ds, c.isDigit = true) ∧ ds.head? ≠ some '0' ∧
      ds.length ≤ (digits d.coefficient).length ∧
      d = ⟨ofDigits ds * 10 ^ k, d.order + 1 - ds.length - k⟩ := by
  obtain ⟨k, split⟩ := exists_zeros (digits d.coefficient)
  generalize kept : ((digits d.coefficient).reverse.dropWhile (· == '0')).reverse = ds at split
  have value : d.coefficient = ofDigits ds * 10 ^ k := by
    rw [← ofDigits_append_zeros, ← split, ofDigits_digits]
  have nonempty : ds ≠ [] := by
    rintro rfl
    rw [value, show ofDigits [] = 0 from rfl, Nat.zero_mul] at positive
    exact Nat.lt_irrefl 0 positive
  have leading : ds.head? = (digits d.coefficient).head? := by
    rw [split, List.head?_append_of_ne_nil _ nonempty]
  have length : (digits d.coefficient).length = ds.length + k := by
    rw [split, List.length_append, List.length_replicate]
  refine ⟨ds, k, by rw [← kept]; rfl, nonempty, fun c member => ?_, ?_, by omega, ?_⟩
  · exact isDigit_of_mem_digits (split ▸ List.mem_append_left _ member)
  · rw [leading]
    exact head?_digits positive
  · have exponent : d.exponent = d.order + 1 - ds.length - k := by
      rw [Decimal.order, length]
      omega
    rw [← value, ← exponent]

/-! ## The layout -/

/-- A numeral with the digits `ds` at `exponent`, laid out as `t`.  It may have zeros besides them,
but no more than eighteen digits in all. -/
structure IsLaidOut (ds : List Char) (exponent : Int) (n : Numeral) (t : List Char) : Prop where
  isText : n.IsText ((if n.negative then ['-'] else []) ++ t)
  notInteger : ¬ n.IsInteger
  notHuge : ¬ n.IsHuge
  value : ∃ k : Nat, ds.length + k ≤ 18 ∧
    n.decimal = ⟨ofDigits ds * 10 ^ k, exponent + 1 - ds.length - k⟩

section

variable {ds : List Char} {exponent : Int}

theorem not_isInteger_of_fraction {n : Numeral} {ds : List Char}
    (present : n.fraction = some ds) : ¬ n.IsInteger := by
  intro integer
  rw [integer.1] at present
  cases present

theorem not_isInteger_of_exponent {n : Numeral} {e : Bool × List Char}
    (present : n.exponent = some e) : ¬ n.IsInteger := by
  intro integer
  rw [integer.2.1] at present
  cases present

/-- A numeral with digits on both sides of a point, which are `ds` and zeros that do not change
what they stand for. -/
theorem isLaidOut_point {whole fraction : List Char} (negative : Bool)
    (isWhole : Numeral.IsWhole whole) (areDigits : AreDigits fraction) {k : Nat}
    (few : ds.length + k ≤ 18)
    (coefficient : ofDigits (whole ++ fraction) = ofDigits ds * 10 ^ k)
    (places : exponent + 1 - ds.length - k = -fraction.length) :
    IsLaidOut ds exponent ⟨negative, whole, some fraction, none⟩ (whole ++ '.' :: fraction) where
  isText := by
    have text : Numeral.IsText ⟨negative, whole, some fraction, none⟩ _ :=
      .intro isWhole (.present areDigits) .absent
    rwa [List.append_nil] at text
  notInteger := not_isInteger_of_fraction rfl
  notHuge := Decode.not_isHuge_of_no_exponent rfl
  value := by
    refine ⟨k, few, ?_⟩
    rw [Numeral.decimal, Numeral.coefficient, Option.getD_some, coefficient, places]
    simp [Numeral.power]

/-- A number below one, written out. -/
theorem exists_isLaidOut_below (negative : Bool) (nonempty : ds ≠ []) (few : ds.length ≤ 18)
    (digits' : ∀ c ∈ ds, c.isDigit = true) (below : exponent < 0) :
    ∃ n : Numeral, n.negative = negative ∧ IsLaidOut ds exponent n
      (['0', '.'] ++ List.replicate (exponent.natAbs - 1) '0' ++ ds) := by
  have zero : Numeral.IsWhole ['0'] := ⟨⟨by simp, by simp⟩, fun _ => rfl⟩
  have areDigits : AreDigits (List.replicate (exponent.natAbs - 1) '0' ++ ds) := by
    refine ⟨by simp [nonempty], fun c member => ?_⟩
    obtain inFront | inDigits := List.mem_append.1 member
    · rw [(List.mem_replicate.1 inFront).2]
      rfl
    · exact digits' c inDigits
  have coefficient :
      ofDigits (['0'] ++ (List.replicate (exponent.natAbs - 1) '0' ++ ds)) =
        ofDigits ds * 10 ^ 0 := by
    rw [Nat.pow_zero, Nat.mul_one, ← List.append_assoc]
    exact ofDigits_zeros_append ds _
  have places : exponent + 1 - ds.length - (0 : Nat) =
      -(List.replicate (exponent.natAbs - 1) '0' ++ ds).length := by
    rw [List.length_append, List.length_replicate]
    omega
  exact ⟨_, rfl, isLaidOut_point negative zero areDigits few coefficient places⟩

theorem isWhole_take_append (nonempty : ds ≠ []) (digits' : ∀ c ∈ ds, c.isDigit = true)
    (leading : ds.head? ≠ some '0') (m k : Nat) :
    Numeral.IsWhole (ds.take (m + 1) ++ List.replicate k '0') := by
  cases ds with
  | nil => exact absurd rfl nonempty
  | cons c cs =>
    refine ⟨⟨by simp, fun d member => ?_⟩, fun first => absurd first leading⟩
    obtain inFront | isZero := List.mem_append.1 member
    · exact digits' d (List.mem_of_mem_take inFront)
    · rw [(List.mem_replicate.1 isZero).2]
      rfl

/-- A number from one on, written out. -/
theorem exists_isLaidOut_above (negative : Bool) (nonempty : ds ≠ []) (few : ds.length ≤ 18)
    (digits' : ∀ c ∈ ds, c.isDigit = true) (leading : ds.head? ≠ some '0')
    (above : 0 ≤ exponent) (small : exponent ≤ 15) :
    ∃ n : Numeral, n.negative = negative ∧ IsLaidOut ds exponent n
      (ds.take (exponent.natAbs + 1) ++
        List.replicate (exponent.natAbs + 1 - (ds.take (exponent.natAbs + 1)).length) '0' ++
        ['.'] ++ (if (ds.drop (exponent.natAbs + 1)).isEmpty then ['0'] else
          ds.drop (exponent.natAbs + 1))) := by
  have whole := isWhole_take_append nonempty digits' leading exponent.natAbs
    (exponent.natAbs + 1 - (ds.take (exponent.natAbs + 1)).length)
  rw [List.append_assoc _ ['.']]
  by_cases short : ds.length ≤ exponent.natAbs + 1
  · -- All digits stand before the point, and the zero behind it is one more.
    rw [List.take_of_length_le short] at whole ⊢
    rw [List.drop_eq_nil_of_le short]
    have coefficient :
        ofDigits (ds ++ List.replicate (exponent.natAbs + 1 - ds.length) '0' ++ ['0']) =
          ofDigits ds * 10 ^ (exponent.natAbs + 1 - ds.length + 1) := by
      rw [← ofDigits_append_zeros, List.replicate_succ', List.append_assoc]
    have places : exponent + 1 - ds.length - (exponent.natAbs + 1 - ds.length + 1 : Nat) =
        -['0'].length := by
      rw [List.length_singleton]
      omega
    exact ⟨_, rfl, isLaidOut_point negative whole ⟨by simp, by simp⟩ (by omega) coefficient places⟩
  · have more : ds.drop (exponent.natAbs + 1) ≠ [] := by
      rw [ne_eq, List.drop_eq_nil_iff]
      exact short
    have noZeros : exponent.natAbs + 1 - (ds.take (exponent.natAbs + 1)).length = 0 := by
      rw [List.length_take]
      omega
    rw [noZeros, List.replicate_zero, List.append_nil] at whole ⊢
    rw [if_neg (by simpa using more)]
    have areDigits : AreDigits (ds.drop (exponent.natAbs + 1)) :=
      ⟨more, fun c member => digits' c (List.mem_of_mem_drop member)⟩
    have coefficient :
        ofDigits (ds.take (exponent.natAbs + 1) ++ ds.drop (exponent.natAbs + 1)) =
          ofDigits ds * 10 ^ 0 := by
      rw [List.take_append_drop, Nat.pow_zero, Nat.mul_one]
    have places : exponent + 1 - ds.length - (0 : Nat) =
        -(ds.drop (exponent.natAbs + 1)).length := by
      rw [List.length_drop]
      omega
    exact ⟨_, rfl, isLaidOut_point negative whole areDigits few coefficient places⟩

/-- A number with an exponent. -/
theorem exists_isLaidOut_scientific (negative : Bool) (nonempty : ds ≠ []) (few : ds.length ≤ 18)
    (digits' : ∀ c ∈ ds, c.isDigit = true) (leading : ds.head? ≠ some '0')
    (moderate : exponent ≤ 0x7fffffff) :
    ∃ n : Numeral, n.negative = negative ∧ IsLaidOut ds exponent n
      (ds.take 1 ++ (if (ds.drop 1).isEmpty then [] else '.' :: ds.drop 1) ++
        ['e', if exponent < 0 then '-' else '+'] ++ digits exponent.natAbs) := by
  have whole := isWhole_take_append nonempty digits' leading 0 0
  rw [List.replicate_zero, List.append_nil] at whole
  let fraction : Option (List Char) := if (ds.drop 1).isEmpty then none else some (ds.drop 1)
  let n : Numeral :=
    ⟨negative, ds.take 1, fraction, some (decide (exponent < 0), digits exponent.natAbs)⟩
  have isFraction : Numeral.IsFraction fraction
      (if (ds.drop 1).isEmpty then [] else '.' :: ds.drop 1) := by
    by_cases single : (ds.drop 1).isEmpty = true
    · simp only [fraction, single, reduceIte]
      exact .absent
    · simp only [fraction, single, Bool.false_eq_true, reduceIte]
      have areDigits : ∀ c ∈ ds.drop 1, c.isDigit = true :=
        fun c member => digits' c (List.mem_of_mem_drop member)
      exact .present ⟨by simpa using single, areDigits⟩
  have rejoined : ds.take 1 ++ fraction.getD [] = ds := by
    by_cases single : (ds.drop 1).isEmpty = true
    · have noMore : ds.drop 1 = [] := by simpa using single
      simp only [fraction, single, reduceIte, Option.getD_none, ← noMore, List.take_append_drop]
    · simp only [fraction, single, Bool.false_eq_true, reduceIte, Option.getD_some,
        List.take_append_drop]
  have isExponent : Numeral.IsExponent n.exponent
      ('e' :: ([if exponent < 0 then '-' else '+'] ++ digits exponent.natAbs)) := by
    refine .present (.inl rfl) ?_ ⟨digits_ne_nil _, fun c member => isDigit_of_mem_digits member⟩
    by_cases below : exponent < 0
    · simp only [below, decide_true, reduceIte]
      exact .minus
    · simp only [below, decide_false, reduceIte]
      exact .plus
  have power : n.power = exponent := by
    simp only [n, Numeral.power, Option.map_some, Option.getD_some, Numeral.exponentValue,
      ofDigits_digits, decide_eq_true_eq]
    split <;> omega
  refine ⟨n, rfl, ?_, ?_, ?_, 0, few, ?_⟩
  · have text : n.IsText _ := .intro (n := n) whole isFraction isExponent
    simpa [n] using text
  · exact not_isInteger_of_exponent rfl
  · rintro ⟨-, beyond⟩
    rw [power] at beyond
    exact Int.not_lt.2 moderate beyond
  · have coefficient : n.coefficient = ofDigits ds := congrArg ofDigits rejoined
    have length := congrArg List.length rejoined
    rw [List.length_append, List.length_take] at length
    have some' := List.length_pos_of_ne_nil nonempty
    rw [Numeral.decimal, coefficient, power, Nat.pow_zero, Nat.mul_one]
    congr 1
    simp only [n]
    omega

end

theorem exists_numeral_layout (negative : Bool) {ds : List Char} {exponent : Int}
    (nonempty : ds ≠ []) (few : ds.length ≤ 18) (digits' : ∀ c ∈ ds, c.isDigit = true)
    (leading : ds.head? ≠ some '0') (moderate : exponent ≤ 0x7fffffff) :
    ∃ n : Numeral, n.negative = negative ∧ IsLaidOut ds exponent n (layout ds exponent) := by
  unfold layout
  split
  next small =>
    split
    next below => exact exists_isLaidOut_below negative nonempty few digits' below
    next above =>
      exact exists_isLaidOut_above negative nonempty few digits' leading (Int.not_lt.1 above)
        small.2
  next => exact exists_isLaidOut_scientific negative nonempty few digits' leading moderate

/-! ## Numbers -/

theorem coefficient_lt {ds : List Char} {k : Nat} (digits : ∀ c ∈ ds, c.isDigit = true)
    (few : ds.length + k ≤ 18) : ofDigits ds * 10 ^ k < 10 ^ 18 := by
  calc ofDigits ds * 10 ^ k < 10 ^ ds.length * 10 ^ k :=
        Nat.mul_lt_mul_of_pos_right (ofDigits_lt digits) (Nat.pow_pos (by decide))
    _ = 10 ^ (ds.length + k) := (Nat.pow_add ..).symm
    _ ≤ 10 ^ 18 := Nat.pow_le_pow_right (by decide) few

/-- A numeral with at most eighteen digits stands for its magnitude, rounded. -/
theorem number?_eq_floating {n : Numeral} {rank : Fin finiteRanks}
    (other : ¬ n.IsInteger) (moderate : ¬ n.IsHuge) (short : n.coefficient < 10 ^ 18)
    (read : Binary64.scaled? n.decimal.coefficient n.decimal.exponent = some rank) :
    n.number? = some (.floating ⟨n.negative, rank⟩) := by
  have fits : n.coefficient ≤ maxSignificand :=
    Nat.le_trans (Nat.le_of_lt short) (by decide)
  rw [Json.Numeral.decimal_eq_of_fits fits] at read
  rw [Numeral.number?, if_neg other, Numeral.floating?, if_neg moderate, read, Option.map_some]

theorem numeral_eq_layout {negative : Bool} {r : Fin finiteRanks} {ds : List Char} {exponent : Int}
    (nonzero : r.val ≠ 0) (significant : significantDigits (shortestDecimal r) = (ds, exponent)) :
    (⟨negative, r⟩ : Binary64).numeral =
      (if negative then ['-'] else []) ++ layout ds exponent := by
  unfold Binary64.numeral
  rw [if_neg nonzero, significant]
  cases negative <;> simp

theorem significantDigits_greatest :
    significantDigits (shortestDecimal (finiteRanks - 1)) =
      (['1', '7', '9', '7', '6', '9', '3', '1', '3', '4', '8', '6', '2', '3', '1', '5', '7'],
        308) := by
  decide +kernel

/-- What is written of a binary64 number other than zero can be read. -/
theorem exists_scaled?_of_significant {r : Fin finiteRanks} (positive : 0 < r.val)
    {ds : List Char} {order : Int} {k : Nat}
    (significant : significantDigits (shortestDecimal r) = (ds, order))
    (near : Decimal.nearest? ⟨ofDigits ds * 10 ^ k, order + 1 - ds.length - k⟩ = some r)
    (short : ofDigits ds * 10 ^ k < 10 ^ 18) (few : ds.length + k ≤ 18) :
    ∃ rank, Binary64.scaled? (ofDigits ds * 10 ^ k) (order + 1 - ds.length - k) = some rank := by
  by_cases last : r.val = finiteRanks - 1
  · -- Rounded products reach beyond the numeral of the greatest number, but not beyond that.
    rw [last, significantDigits_greatest] at significant
    cases significant
    have zeros : k = 0 ∨ k = 1 := by
      simp only [List.length_cons, List.length_nil] at few
      omega
    obtain rfl | rfl := zeros
    · exact Option.isSome_iff_exists.1 (by decide +kernel)
    · exact Option.isSome_iff_exists.1 (by decide +kernel)
  · have nonzero := Decimal.coefficient_pos_of_nearest? near positive
    exact Binary64.exists_scaled? nonzero (Nat.le_of_lt short) near (by omega)

theorem exists_numeral_of_zero {negative : Bool} {r : Fin finiteRanks} (isZero : r.val = 0) :
    ∃ (n : Numeral) (rank : Fin finiteRanks), n.IsText (⟨negative, r⟩ : Binary64).numeral ∧
      n.number? = some (.floating ⟨negative, rank⟩) := by
  let n : Numeral := ⟨negative, ['0'], some ['0'], none⟩
  have text : n.IsText _ := .intro (n := n) ⟨⟨by simp [n], by simp [n]⟩, fun _ => rfl⟩
    (.present ⟨by simp, by simp⟩) .absent
  have short : ofDigits ['0', '0'] < 10 ^ 18 := by decide
  have read : Binary64.scaled? 0 (-1) = some Binary64.zero.rank := by decide +kernel
  refine ⟨n, _, ?_, number?_eq_floating (not_isInteger_of_fraction rfl)
    (Decode.not_isHuge_of_no_exponent rfl) short read⟩
  cases negative <;> simpa [n, Binary64.numeral, isZero] using text

theorem exists_numeral_of_pos {negative : Bool} {r : Fin finiteRanks} (positive : 0 < r.val) :
    ∃ (n : Numeral) (rank : Fin finiteRanks), n.IsText (⟨negative, r⟩ : Binary64).numeral ∧
      n.number? = some (.floating ⟨negative, rank⟩) := by
  obtain ⟨near, small⟩ := shortestDecimal_spec positive
  have nonzero := Decimal.coefficient_pos_of_nearest? near positive
  have moderate := Decimal.order_lt_of_nearest? nonzero near
  obtain ⟨ds, k, significant, nonempty, digits', leading, few, value⟩ :=
    significantDigits_spec nonzero
  have few : ds.length ≤ 18 := by
    refine Nat.le_trans few ((length_digits_le_iff (by decide)).2 ?_)
    exact Nat.lt_of_le_of_lt small (by decide)
  rw [numeral_eq_layout (Nat.ne_of_gt positive) significant]
  generalize (shortestDecimal r).order = order at moderate value significant
  obtain ⟨n, rfl, laidOut⟩ := exists_numeral_layout negative nonempty few digits' leading
    (by omega : order ≤ 0x7fffffff)
  -- The numeral may have other zeros at its end than the shortest decimal.
  obtain ⟨k', few', value'⟩ := laidOut.value
  have short := coefficient_lt digits' few'
  have near' : Decimal.nearest? ⟨ofDigits ds * 10 ^ k', order + 1 - ds.length - k'⟩ = some r := by
    rw [value, Decimal.nearest?_shift, Int.sub_add_cancel] at near
    rw [Decimal.nearest?_shift, Int.sub_add_cancel, near]
  obtain ⟨rank, read⟩ := exists_scaled?_of_significant positive significant near' short few'
  have coefficient : n.coefficient = ofDigits ds * 10 ^ k' := congrArg Decimal.coefficient value'
  refine ⟨n, rank, laidOut.isText, number?_eq_floating laidOut.notInteger
    laidOut.notHuge (coefficient ▸ short) ?_⟩
  rw [value']
  exact read

/-! ## Reading back -/

/-- What the numeral of a number is read as. -/
def Binary64.reread (x : Binary64) : Binary64 :=
  match Decode.readNumber x.numeral with
  | .ok (.floating y, []) => y
  | _ => x

/-- The number that is written as 51.248178375505404 is read as the next one. -/
example : (⟨false, ⟨4632409357216853856, by decide⟩⟩ : Binary64).reread.rank.val =
    4632409357216853857 := by
  decide +kernel

/-- What is written of a binary64 number stands for the number that it is read as. -/
theorem exists_numeral (x : Binary64) :
    ∃ n : Numeral, n.IsText x.numeral ∧ n.number? = some (.floating x.reread) := by
  obtain ⟨n, rank, text, value⟩ : ∃ (n : Numeral) (rank : Fin finiteRanks),
      n.IsText x.numeral ∧ n.number? = some (.floating ⟨x.negative, rank⟩) := by
    by_cases isZero : x.rank.val = 0
    · exact exists_numeral_of_zero isZero
    · exact exists_numeral_of_pos (Nat.pos_of_ne_zero isZero)
  have ends : Decode.EndsScalar [] := nofun
  have read := Decode.readNumber_of_isText text value ends
  rw [List.append_nil] at read
  have same : x.reread = ⟨x.negative, rank⟩ := by rw [Binary64.reread, read]
  exact ⟨n, text, same ▸ value⟩

/-- What is written of a whole number stands for it. -/
theorem exists_numeral_of_integer (i : Integer) :
    ∃ n : Numeral, n.IsText (renderInt i.value) ∧ n.number? = some (.integer i) := by
  let n : Numeral := ⟨i.value < 0, digits i.value.natAbs, none, none⟩
  have whole : Numeral.IsWhole (digits i.value.natAbs) := by
    refine ⟨⟨digits_ne_nil _, fun c member => isDigit_of_mem_digits member⟩, fun first => ?_⟩
    cases magnitude : i.value.natAbs with
    | zero => rfl
    | succ m =>
      rw [magnitude] at first
      exact absurd first (head?_digits (Nat.succ_pos m))
  have text : n.IsText _ := .intro (n := n) whole .absent .absent
  have coefficient : n.coefficient = i.value.natAbs := by
    rw [Numeral.coefficient, Option.getD_none, List.append_nil, ofDigits_digits]
  have integer : n.IsInteger := by
    refine ⟨rfl, rfl, ?_⟩
    rw [coefficient]
    rintro ⟨below, zero⟩
    have below : i.value < 0 := of_decide_eq_true below
    omega
  have value : (if n.negative then -(n.coefficient : Int) else n.coefficient) = i.value := by
    rw [coefficient]
    simp only [n, decide_eq_true_eq]
    split <;> omega
  refine ⟨n, ?_, ?_⟩
  · by_cases below : i.value < 0
    · simpa [n, renderInt, below] using text
    · simpa [n, renderInt, below] using text
  · rw [Numeral.number?, if_pos integer, value, Integer.ofInt?_value]

end RecipeEngine.Number
