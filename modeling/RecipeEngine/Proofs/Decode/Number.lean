import RecipeEngine.Proofs.Decode.Reader
import RecipeEngine.Proofs.Number.Digits

/-!
# Reading numbers

The reader of a number accepts exactly the numerals of the grammar that stand for a number: what it
consumes is such a numeral (`exists_of_readNumber`), and it gives the number that a numeral stands
for (`readNumber_of_isText`).  A numeral goes on as far as it can, so what follows it must not
begin with a character that could continue it.
-/

namespace RecipeEngine.Decode

open Json Number

/-- Whether a text ends or goes on with a character that ends any scalar. -/
def EndsScalar (rest : List Char) : Prop :=
  ∀ c ∈ rest.head?, c ∈ [' ', '\n', '\t', '\r', ',', ']', '\x7d']

/-- Whether a text does not begin with a digit. -/
def EndsDigits (rest : List Char) : Prop := ∀ c ∈ rest.head?, c.isDigit = false

theorem EndsScalar.endsDigits {rest : List Char} (ends : EndsScalar rest) : EndsDigits rest := by
  have noDigit : ∀ c ∈ [' ', '\n', '\t', '\r', ',', ']', '\x7d'], c.isDigit = false := by simp
  exact fun c first => noDigit c (ends c first)

theorem EndsScalar.head?_ne {rest : List Char} (ends : EndsScalar rest) {c : Char}
    (other : c ∉ [' ', '\n', '\t', '\r', ',', ']', '\x7d']) : rest.head? ≠ some c :=
  fun first => other (ends c first)

/-! ## Rows of digits -/

section

variable {ds rest : List Char}

theorem takeWhile_digits (digits : ∀ c ∈ ds, c.isDigit = true) (ends : EndsDigits rest) :
    (ds ++ rest).takeWhile Char.isDigit = ds := by
  rw [List.takeWhile_append_of_pos digits]
  cases rest with
  | nil => simp
  | cons c rest => simp [ends c rfl]

theorem dropWhile_digits (digits : ∀ c ∈ ds, c.isDigit = true) (ends : EndsDigits rest) :
    (ds ++ rest).dropWhile Char.isDigit = rest := by
  rw [List.dropWhile_append_of_pos digits]
  cases rest with
  | nil => rfl
  | cons c rest => simp [ends c rfl]

theorem areDigits_takeWhile {c : Char} {cs : List Char} (digit : c.isDigit = true) :
    AreDigits ((c :: cs).takeWhile Char.isDigit) := by
  refine ⟨by simp [digit], fun d member => ?_⟩
  exact List.mem_takeWhile_imp member

end

/-! ## The parts of a numeral -/

theorem exists_of_readWhole {cs ds rest : List Char} (read : readWhole cs = .ok (ds, rest)) :
    cs = ds ++ rest ∧ Numeral.IsWhole ds := by
  have zero : Numeral.IsWhole ['0'] := ⟨⟨by simp, by simp⟩, fun _ => rfl⟩
  cases cs with
  | nil => cases failAt_ne_ok read
  | cons c cs =>
    simp only [readWhole] at read
    split at read
    next isZero =>
      rw [isZero] at read ⊢
      cases cs with
      | nil =>
        cases read
        exact ⟨rfl, zero⟩
      | cons d cs =>
        simp only at read
        split at read
        next => cases failPeeking_ne_ok read
        next =>
          cases read
          exact ⟨rfl, zero⟩
    next notZero =>
      split at read
      next digit =>
        cases read
        have digits : AreDigits ((c :: cs).takeWhile Char.isDigit) := areDigits_takeWhile digit
        rw [List.takeWhile_cons_of_pos digit] at digits
        refine ⟨by simp, digits, ?_⟩
        intro first
        exact absurd (Option.some.inj first) notZero
      next => cases failPeeking_ne_ok read

theorem readWhole_of_isWhole {ds rest : List Char} (whole : Numeral.IsWhole ds)
    (ends : EndsDigits rest) : readWhole (ds ++ rest) = .ok (ds, rest) := by
  obtain ⟨⟨nonempty, digits⟩, alone⟩ := whole
  cases ds with
  | nil => exact absurd rfl nonempty
  | cons c cs =>
    have digit := digits c (List.mem_cons_self ..)
    have later : ∀ d ∈ cs, d.isDigit = true := fun d member => digits d (.tail c member)
    -- A zero in front stands alone, so what follows it is no digit of the numeral.
    by_cases isZero : c = '0'
    · have single : cs = [] := by
        have same := alone (by rw [isZero]; rfl)
        rw [isZero] at same
        exact (List.cons.inj same).2
      subst isZero single
      cases rest with
      | nil => rfl
      | cons d rest => simp [readWhole, ends d rfl]
    · simp [readWhole, isZero, digit, takeWhile_digits later ends, dropWhile_digits later ends]

theorem exists_of_readFraction {cs rest : List Char} {fraction : Option (List Char)}
    (read : readFraction cs = .ok (fraction, rest)) :
    ∃ t, cs = t ++ rest ∧ Numeral.IsFraction fraction t := by
  cases cs with
  | nil =>
    cases read
    exact ⟨[], rfl, .absent⟩
  | cons c cs =>
    simp only [readFraction] at read
    split at read
    next isPoint =>
      cases cs with
      | nil => cases failPeeking_ne_ok read
      | cons d cs =>
        simp only at read
        split at read
        next digit =>
          cases read
          exact ⟨c :: (d :: cs).takeWhile Char.isDigit, by simp,
            isPoint ▸ .present (areDigits_takeWhile digit)⟩
        next => cases failPeeking_ne_ok read
    next =>
      cases read
      exact ⟨[], rfl, .absent⟩

theorem readFraction_of_isFraction {t rest : List Char} {fraction : Option (List Char)}
    (text : Numeral.IsFraction fraction t) (ends : EndsDigits rest)
    (noPoint : rest.head? ≠ some '.') : readFraction (t ++ rest) = .ok (fraction, rest) := by
  cases text with
  | absent =>
    cases rest with
    | nil => rfl
    | cons c rest =>
      have other : c ≠ '.' := fun same => noPoint (by rw [same]; rfl)
      simp [readFraction, other]
  | @present ds digits =>
    have all := digits.2
    cases ds with
    | nil => exact absurd rfl digits.1
    | cons d ds =>
      have digit := all d (List.mem_cons_self ..)
      have taken := takeWhile_digits all ends
      have dropped := dropWhile_digits all ends
      rw [List.cons_append] at taken dropped
      simp only [List.cons_append, readFraction, reduceIte, digit, taken, dropped]

/-! ## Exponents -/

theorem ofDigits_eq (ds : List Char) : ofDigits ds = Nat.ofDigitChars 10 ds 0 := rfl

theorem le_ofDigitChars (ds : List Char) (n : Nat) : n ≤ Nat.ofDigitChars 10 ds n := by
  rw [Nat.ofDigitChars_eq_ofDigitChars_zero]
  have : 1 * n ≤ 10 ^ ds.length * n := Nat.mul_le_mul_right n (Nat.one_le_pow _ _ (by decide))
  omega

theorem exists_of_readExponentDigits {limited : Bool} {n m : Nat} {cs rest : List Char}
    (read : readExponentDigits limited n cs = .ok (m, rest)) :
    ∃ ds, cs = ds ++ rest ∧ (∀ c ∈ ds, c.isDigit = true) ∧ EndsDigits rest ∧
      m = Nat.ofDigitChars 10 ds n ∧ (limited = true → ds ≠ [] → m ≤ exponentLimit) := by
  -- The limit is looked at with every digit, and that it holds with the last one is what is kept.
  induction cs generalizing n with
  | nil =>
    cases read
    exact ⟨[], rfl, by simp, nofun, rfl, fun _ some => absurd rfl some⟩
  | cons c cs ih =>
    simp only [readExponentDigits] at read
    split at read
    next digit =>
      split at read
      next => cases failAt_ne_ok read
      next within =>
        obtain ⟨ds, rfl, digits, ends, rfl, limit⟩ := ih read
        refine ⟨c :: ds, rfl, List.forall_mem_cons.2 ⟨digit, digits⟩, ends, rfl,
          fun isLimited _ => ?_⟩
        cases ds with
        | nil => exact Nat.not_lt.1 fun beyond => within ⟨isLimited, beyond⟩
        | cons => exact limit isLimited (by simp)
    next noDigit =>
      cases read
      refine ⟨[], rfl, by simp, fun d first => ?_, rfl, fun _ some => absurd rfl some⟩
      cases first
      exact Bool.not_eq_true _ ▸ noDigit

theorem readExponentDigits_of_digits {limited : Bool} {n : Nat} {ds rest : List Char}
    (digits : ∀ c ∈ ds, c.isDigit = true) (ends : EndsDigits rest)
    (limit : limited = true → Nat.ofDigitChars 10 ds n ≤ exponentLimit) :
    readExponentDigits limited n (ds ++ rest) = .ok (Nat.ofDigitChars 10 ds n, rest) := by
  induction ds generalizing n with
  | nil =>
    cases rest with
    | nil => rfl
    | cons c rest => simp [readExponentDigits, ends c rfl]
  | cons c ds ih =>
    obtain ⟨digit, later⟩ := List.forall_mem_cons.1 digits
    -- The digits that follow only make the number greater.
    have within : ¬ (limited = true ∧ exponentLimit < 10 * n + (c.toNat - 48)) := by
      rintro ⟨isLimited, beyond⟩
      have grown := le_ofDigitChars ds (10 * n + (c.toNat - 48))
      exact absurd (Nat.le_trans grown (limit isLimited)) (Nat.not_le.2 beyond)
    simp only [List.cons_append, readExponentDigits, digit, reduceIte, within]
    exact ih later limit

/-- The sign that is looked for in front of the digits of an exponent, and what follows it. -/
theorem exists_sign (cs : List Char) :
    ∃ sign, Numeral.IsSign (cs.head? == some '-') sign ∧
      cs = sign ++
        (if (cs.head? == some '-') = true ∨ cs.head? = some '+' then cs.drop 1 else cs) := by
  cases cs with
  | nil => exact ⟨[], .bare, rfl⟩
  | cons c cs =>
    by_cases minus : c = '-'
    · subst minus
      exact ⟨['-'], .minus, by simp⟩
    · by_cases plus : c = '+'
      · subst plus
        exact ⟨['+'], .plus, by simp⟩
      · have bare : ((c :: cs).head? == some '-') = false := by simp [minus]
        rw [bare]
        exact ⟨[], .bare, by simp [plus]⟩

theorem head?_sign {negative : Bool} {sign ds : List Char} (rest : List Char)
    (text : Numeral.IsSign negative sign) (digits : AreDigits ds) :
    ((sign ++ (ds ++ rest)).head? == some '-') = negative ∧
      (if negative = true ∨ (sign ++ (ds ++ rest)).head? = some '+' then
          (sign ++ (ds ++ rest)).drop 1
        else sign ++ (ds ++ rest)) = ds ++ rest := by
  cases text with
  | plus => simp
  | minus => simp
  | bare =>
    cases ds with
    | nil => exact absurd rfl digits.1
    | cons d ds =>
      have digit := digits.2 d (List.mem_cons_self ..)
      have notMinus : d ≠ '-' := by rintro rfl; cases digit
      have notPlus : d ≠ '+' := by rintro rfl; cases digit
      simp [notMinus, notPlus]

theorem exists_of_readUnsignedExponent {limited : Bool} {cs rest : List Char} {n : Nat}
    (read : readUnsignedExponent limited cs = .ok (n, rest)) :
    ∃ ds, cs = ds ++ rest ∧ AreDigits ds ∧ n = ofDigits ds ∧
      (limited = true → n ≤ exponentLimit) := by
  cases cs with
  | nil => cases failAt_ne_ok read
  | cons c cs =>
    simp only [readUnsignedExponent] at read
    split at read
    next digit =>
      obtain ⟨ds, split, digits, ends, value, limit⟩ := exists_of_readExponentDigits read
      have nonempty : ds ≠ [] := by
        rintro rfl
        have noDigit := ends c (by rw [List.nil_append] at split; rw [← split]; rfl)
        rw [digit] at noDigit
        cases noDigit
      exact ⟨ds, split, ⟨nonempty, digits⟩, value, fun isLimited => limit isLimited nonempty⟩
    next => cases failPeeking_ne_ok read

theorem readUnsignedExponent_of_areDigits {limited : Bool} {ds rest : List Char}
    (digits : AreDigits ds) (ends : EndsDigits rest)
    (limit : limited = true → ofDigits ds ≤ exponentLimit) :
    readUnsignedExponent limited (ds ++ rest) = .ok (ofDigits ds, rest) := by
  have read := readExponentDigits_of_digits (n := 0) digits.2 ends limit
  cases ds with
  | nil => exact absurd rfl digits.1
  | cons d ds =>
    have digit := digits.2 d (List.mem_cons_self ..)
    simpa only [List.cons_append, readUnsignedExponent, digit, reduceIte, ofDigits_eq] using read

theorem exponentValue_le {negative : Bool} {ds : List Char} {limit : Nat}
    (within : negative = false → ofDigits ds ≤ limit) :
    Numeral.exponentValue (negative, ds) ≤ limit := by
  cases negative with
  | true => simp only [Numeral.exponentValue, reduceIte]; omega
  | false =>
    simp only [Numeral.exponentValue, Bool.false_eq_true, reduceIte]
    exact Int.ofNat_le.2 (within rfl)

/-- What is consumed is the exponent that is given, and it keeps to its limit. -/
theorem exists_of_readExponent {isZero : Bool} {cs rest : List Char} {e : Option Int}
    (read : readExponent isZero cs = .ok (e, rest)) :
    ∃ exponent t, cs = t ++ rest ∧ Numeral.IsExponent exponent t ∧
      e = exponent.map Numeral.exponentValue ∧
      (isZero = false → e.getD 0 ≤ exponentLimit) := by
  cases cs with
  | nil =>
    cases read
    exact ⟨none, [], rfl, .absent, rfl, fun _ => by simp⟩
  | cons c cs =>
    simp only [readExponent] at read
    split at read
    next letter =>
      simp only [map_eq_ok_iff, Prod.exists] at read
      obtain ⟨n, _, unsigned, same⟩ := read
      obtain ⟨sign, isSign, split⟩ := exists_sign cs
      generalize (if (cs.head? == some '-') = true ∨ cs.head? = some '+' then cs.drop 1 else cs) =
        unsignedText at unsigned split
      generalize (cs.head? == some '-') = negative at unsigned same isSign
      obtain ⟨ds, rfl, digits, rfl, limit⟩ := exists_of_readUnsignedExponent unsigned
      cases same
      refine ⟨some (negative, ds), c :: (sign ++ ds), ?_, .present letter isSign digits, rfl,
        fun notZero => ?_⟩
      · rw [split, List.cons_append, List.append_assoc]
      · refine exponentValue_le fun positive => limit ?_
        rw [positive, notZero]
        rfl
    next =>
      cases read
      exact ⟨none, [], rfl, .absent, rfl, fun _ => by simp⟩

theorem readExponent_of_isExponent {isZero : Bool} {t rest : List Char}
    {exponent : Option (Bool × List Char)} (text : Numeral.IsExponent exponent t)
    (ends : EndsScalar rest)
    (limit : isZero = false → (exponent.map Numeral.exponentValue).getD 0 ≤ exponentLimit) :
    readExponent isZero (t ++ rest) = .ok (exponent.map Numeral.exponentValue, rest) := by
  cases text with
  | absent =>
    cases rest with
    | nil => rfl
    | cons c rest =>
      have noLetter : ¬ (c = 'e' ∨ c = 'E') := by
        rintro (rfl | rfl)
        · exact ends.head?_ne (by decide) rfl
        · exact ends.head?_ne (by decide) rfl
      simp only [List.nil_append, readExponent, noLetter, reduceIte, Option.map_none]
  | @present letter negative sign ds isLetter isSign digits =>
    obtain ⟨minus, unsigned⟩ := head?_sign rest isSign digits
    -- A negative exponent has no limit, and neither has that of zero.
    have within : (!negative && !isZero) = true → ofDigits ds ≤ exponentLimit := by
      intro limited
      simp only [Bool.and_eq_true, Bool.not_eq_true'] at limited
      have value := limit limited.2
      rw [limited.1] at value
      exact Int.ofNat_le.1 value
    have read := readUnsignedExponent_of_areDigits digits ends.endsDigits within
    simp only [List.cons_append, List.append_assoc, readExponent, isLetter, reduceIte, minus,
      unsigned, read, map_ok]
    rfl

/-! ## Numbers -/

theorem floating_eq_ok_iff {negative : Bool} {significand : Nat} {exponent : Int}
    {v : JsonNumber} {rest after : List Char} :
    floating negative significand exponent rest = .ok (v, after) ↔
      ((Binary64.scaled? significand exponent).map fun rank =>
          JsonNumber.floating ⟨negative, rank⟩) = some v ∧ rest = after := by
  unfold floating
  cases Binary64.scaled? significand exponent with
  | none => simp
  | some rank => simp

theorem floating?_of_not_isHuge {n : Numeral} (moderate : ¬ n.IsHuge) :
    n.floating? =
      (Binary64.scaled? n.significand n.scale).map fun rank => .floating ⟨n.negative, rank⟩ :=
  if_neg moderate

theorem not_isHuge_of_no_exponent {n : Numeral} (noExponent : n.exponent = none) :
    ¬ n.IsHuge := by
  have power : n.power = 0 := by rw [Numeral.power, noExponent]; rfl
  intro huge
  have beyond := huge.2
  rw [power] at beyond
  cases beyond

theorem not_isHuge_of_number? {n : Numeral} {v : JsonNumber} (value : n.number? = some v) :
    ¬ n.IsHuge := by
  intro huge
  have none_near : n.floating? = none := if_pos huge
  unfold Numeral.number? at value
  split at value
  next integer => exact not_isHuge_of_no_exponent integer.2.1 huge
  next =>
    rw [none_near] at value
    cases value

theorem scaled?_zero : Binary64.scaled? 0 0 = some Binary64.zero.rank := by decide +kernel

/-- A number that does not fit is no whole number of 64 bits, whatever its sign. -/
theorem ofInt?_eq_none {negative : Bool} {n : Nat} (large : maxSignificand < n) :
    Integer.ofInt? (if negative then -(n : Int) else n) = none := by
  rw [maxSignificand] at large
  refine dif_neg ?_
  split <;> omega

section

variable {n : Numeral} {v : JsonNumber} {rest after : List Char}

theorem wholeNumber_eq_ok_iff (noFraction : n.fraction = none) (noExponent : n.exponent = none)
    (fits : ofDigits n.whole ≤ maxSignificand) :
    wholeNumber n.negative n.significand rest = .ok (v, after) ↔
      n.number? = some v ∧ rest = after := by
  have value : n.coefficient = ofDigits n.whole := by
    rw [Numeral.coefficient, noFraction, Option.getD_none, List.append_nil]
  have power : n.power = 0 := by rw [Numeral.power, noExponent]; rfl
  have decimal : n.decimal = ⟨n.coefficient, 0⟩ := by
    rw [Numeral.decimal, power, noFraction]
    rfl
  rw [Numeral.decimal_eq_of_fits (value ▸ fits), Decimal.mk.injEq] at decimal
  have near := floating?_of_not_isHuge (not_isHuge_of_no_exponent noExponent)
  rw [decimal.1, decimal.2] at near
  rw [decimal.1]
  unfold wholeNumber Numeral.number?
  by_cases signedZero : n.negative = true ∧ n.coefficient = 0
  · have notInteger : ¬ n.IsInteger := fun integer => integer.2.2 signedZero
    rw [if_pos signedZero, if_neg notInteger, near, signedZero.1, signedZero.2, scaled?_zero]
    simp [Binary64.negativeZero, Binary64.zero]
  · have integer : n.IsInteger := ⟨noFraction, noExponent, signedZero⟩
    rw [if_neg signedZero, if_pos integer]
    cases Integer.ofInt? (if n.negative then -(n.coefficient : Int) else n.coefficient) with
    | some i => simp
    | none => rw [near]; exact floating_eq_ok_iff

/-- What does not fit 64 bits is rounded, even if it is written like a whole number. -/
theorem number?_of_large (noFraction : n.fraction = none) (noExponent : n.exponent = none)
    (large : maxSignificand < ofDigits n.whole) : n.number? = n.floating? := by
  have value : n.coefficient = ofDigits n.whole := by
    rw [Numeral.coefficient, noFraction, Option.getD_none, List.append_nil]
  have integer : n.IsInteger := by
    refine ⟨noFraction, noExponent, fun signedZero => ?_⟩
    rw [← value, signedZero.2] at large
    cases large
  rw [Numeral.number?, if_pos integer, ofInt?_eq_none (value ▸ large)]

/-- What is made of the parts of a numeral, once they are read, is the number that it stands
for. -/
theorem number?_iff (moderate : ¬ n.IsHuge) :
    (match n.fraction, n.exponent.map Numeral.exponentValue,
        n.whole.drop n.keptWhole.length with
      | none, none, [] => wholeNumber n.negative n.significand rest
      | _, _, _ => floating n.negative n.significand n.scale rest) = .ok (v, after) ↔
      n.number? = some v ∧ rest = after := by
  have near := floating?_of_not_isHuge moderate
  have allKept : n.whole.drop n.keptWhole.length = [] ↔ ofDigits n.whole ≤ maxSignificand := by
    rw [← Numeral.keptWhole_eq_iff, List.drop_eq_nil_iff]
    have isPrefix := Numeral.fitting_isPrefix [] n.whole
    exact ⟨isPrefix.eq_of_length_le, fun same => Nat.le_of_eq (congrArg List.length same).symm⟩
  split
  next noFraction noExponent kept =>
    exact wholeNumber_eq_ok_iff noFraction (Option.map_eq_none_iff.1 noExponent) (allKept.1 kept)
  next other =>
    have isFloating : n.number? = n.floating? := by
      by_cases integer : n.IsInteger
      · refine number?_of_large integer.1 integer.2.1 (Nat.not_le.1 fun fits => ?_)
        exact other integer.1 (Option.map_eq_none_iff.2 integer.2.1) (allKept.2 fits)
      · exact if_neg integer
    rw [isFloating, near]
    exact floating_eq_ok_iff

end

theorem ends_of_isExponent {exponent : Option (Bool × List Char)} {t rest : List Char}
    (text : Numeral.IsExponent exponent t) (ends : EndsScalar rest) :
    EndsDigits (t ++ rest) ∧ (t ++ rest).head? ≠ some '.' := by
  cases text with
  | absent => exact ⟨ends.endsDigits, ends.head?_ne (by decide)⟩
  | present letter =>
    obtain rfl | rfl := letter
    · exact ⟨fun c first => by cases first; rfl, by simp⟩
    · exact ⟨fun c first => by cases first; rfl, by simp⟩

theorem endsDigits_of_isFraction {fraction : Option (List Char)} {t rest : List Char}
    (text : Numeral.IsFraction fraction t) (ends : EndsDigits rest) : EndsDigits (t ++ rest) := by
  cases text with
  | absent => exact ends
  | present => exact fun c first => by cases first; rfl

theorem isDigit_of_isFraction {fraction : Option (List Char)} {t : List Char}
    (text : Numeral.IsFraction fraction t) : ∀ c ∈ fraction.getD [], c.isDigit = true := by
  cases text with
  | absent => exact List.forall_mem_nil _
  | present digits => exact digits.2

theorem readUnsigned_of_isText {n : Numeral} {fraction exponent rest : List Char}
    {v : JsonNumber} (whole : Numeral.IsWhole n.whole)
    (fractionText : Numeral.IsFraction n.fraction fraction)
    (exponentText : Numeral.IsExponent n.exponent exponent)
    (value : n.number? = some v) (ends : EndsScalar rest) :
    readUnsigned n.negative (n.whole ++ (fraction ++ (exponent ++ rest))) = .ok (v, rest) := by
  have moderate := not_isHuge_of_number? value
  obtain ⟨endsFraction, noPoint⟩ := ends_of_isExponent exponentText ends
  have endsWhole := endsDigits_of_isFraction fractionText endsFraction
  have isZero := Numeral.significand_eq_zero_iff whole.1.2 (isDigit_of_isFraction fractionText)
  have limit : (n.significand == 0) = false →
      (n.exponent.map Numeral.exponentValue).getD 0 ≤ exponentLimit := by
    intro notZero
    rw [beq_eq_false_iff_ne, ne_eq, isZero] at notZero
    exact Int.not_lt.1 fun beyond => moderate ⟨notZero, beyond⟩
  have readWhole := readWhole_of_isWhole whole endsWhole
  have readFraction := readFraction_of_isFraction fractionText endsFraction noPoint
  have readExponent := readExponent_of_isExponent exponentText ends limit
  have finish := (number?_iff moderate).2 ⟨value, (rfl : rest = rest)⟩
  simp only [readUnsigned, readWhole, readFraction, ok_bind, n.gatherDigits_whole,
    n.gatherDigits_fraction, readExponent]
  rw [← Numeral.power, n.scale_eq]
  exact finish

/-- A numeral that stands for a number is read as that number. -/
theorem readNumber_of_isText {n : Numeral} {t rest : List Char} {v : JsonNumber}
    (text : n.IsText t) (value : n.number? = some v) (ends : EndsScalar rest) :
    readNumber (t ++ rest) = .ok (v, rest) := by
  cases text with
  | @intro fraction exponent whole fractionText exponentText =>
    have read := readUnsigned_of_isText whole fractionText exponentText value ends
    cases negative : n.negative with
    | true =>
      rw [negative] at read
      simpa [readNumber, negative] using read
    | false =>
      rw [negative] at read
      obtain ⟨⟨nonempty, digits⟩, -⟩ := whole
      cases split : n.whole with
      | nil => exact absurd split nonempty
      | cons c ds =>
        have digit := digits c (by rw [split]; exact List.mem_cons_self ..)
        have noSign : c ≠ '-' := by rintro rfl; cases digit
        rw [split] at read
        simpa [readNumber, noSign] using read

theorem exists_of_readUnsigned {negative : Bool} {cs rest : List Char} {v : JsonNumber}
    (read : readUnsigned negative cs = .ok (v, rest)) :
    ∃ (n : Numeral) (fraction exponent : List Char),
      n.negative = negative ∧ cs = n.whole ++ (fraction ++ (exponent ++ rest)) ∧
      Numeral.IsWhole n.whole ∧ Numeral.IsFraction n.fraction fraction ∧
      Numeral.IsExponent n.exponent exponent ∧ n.number? = some v := by
  simp only [readUnsigned, bind_eq_ok_iff, Prod.exists] at read
  obtain ⟨ds, _, readWhole, fraction, _, readFraction, e, after, readExponent, finish⟩ := read
  obtain ⟨rfl, whole⟩ := exists_of_readWhole readWhole
  obtain ⟨fractionText, rfl, isFraction⟩ := exists_of_readFraction readFraction
  obtain ⟨exponent, exponentText, rfl, isExponent, rfl, limit⟩ :=
    exists_of_readExponent readExponent
  let n : Numeral := ⟨negative, ds, fraction, exponent⟩
  have keptWhole : gatherDigits 0 ds = _ := n.gatherDigits_whole
  have keptFraction : gatherDigits _ (fraction.getD []) = _ := n.gatherDigits_fraction
  have scale : (exponent.map Numeral.exponentValue).getD 0 + _ - _ = _ := n.scale_eq
  simp only [keptWhole, keptFraction] at limit finish
  rw [scale] at finish
  have isZero : n.significand = 0 ↔ n.coefficient = 0 :=
    Numeral.significand_eq_zero_iff whole.1.2 (isDigit_of_isFraction isFraction)
  have moderate : ¬ n.IsHuge := by
    rintro ⟨notZero, beyond⟩
    rw [ne_eq, ← isZero] at notZero
    exact Int.not_lt.2 (limit (beq_eq_false_iff_ne.2 notZero)) beyond
  obtain ⟨value, rfl⟩ := (number?_iff moderate).1 finish
  exact ⟨n, fractionText, exponentText, rfl, rfl, whole, isFraction, isExponent, value⟩

/-- What is read as a number is a numeral that stands for it. -/
theorem exists_of_readNumber {cs rest : List Char} {v : JsonNumber}
    (read : readNumber cs = .ok (v, rest)) :
    ∃ (n : Numeral) (t : List Char), cs = t ++ rest ∧ n.IsText t ∧ n.number? = some v := by
  cases cs with
  | nil => cases failAt_ne_ok read
  | cons c cs =>
    simp only [readNumber] at read
    split at read
    next sign =>
      obtain ⟨n, fraction, exponent, negative, rfl, whole, isFraction, isExponent, value⟩ :=
        exists_of_readUnsigned read
      refine ⟨n, _, ?_, .intro whole isFraction isExponent, value⟩
      simp [negative, sign]
    next =>
      obtain ⟨n, fraction, exponent, negative, split, whole, isFraction, isExponent, value⟩ :=
        exists_of_readUnsigned read
      refine ⟨n, _, ?_, .intro whole isFraction isExponent, value⟩
      simp [negative, split]

end RecipeEngine.Decode
