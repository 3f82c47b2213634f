import RecipeEngine.Proofs.Decode.Number
import RecipeEngine.Proofs.Number.Nearest
import RecipeEngine.Timestamp.Read

/-!
# Timestamps read back

What is written of an instant is read as the same instant (`Timestamp.read_render`), whatever its
year and also in a leap second.  Every part is written with a width of its own, which is what makes
it possible to read the parts one after the other.
-/

namespace RecipeEngine.Timestamp

open Decode Number Text

/-! ## Padded numbers -/

theorem ofDigits_padded (width n : Nat) : ofDigits (padded width n) = n := by
  rw [padded, ofDigits_zeros_append, ofDigits_digits]

theorem isDigit_of_mem_padded {width n : Nat} {c : Char} (member : c ∈ padded width n) :
    c.isDigit = true := by
  obtain isZero | isDigit := List.mem_append.1 member
  · rw [(List.mem_replicate.1 isZero).2]
    rfl
  · exact isDigit_of_mem_digits isDigit

theorem padded_ne_nil (width n : Nat) : padded width n ≠ [] :=
  List.append_ne_nil_of_right_ne_nil _ (digits_ne_nil n)

theorem length_padded {width n : Nat} (positive : 0 < width) (fits : n < 10 ^ width) :
    (padded width n).length = width := by
  have short := (length_digits_le_iff positive).2 fits
  rw [padded, List.length_append, List.length_replicate]
  omega

/-! ## Characters that are not blank -/

theorem isBlank_of_isDigit {c : Char} (digit : c.isDigit = true) : isBlank c = false := by
  have low : 48 ≤ c.toNat ∧ c.toNat ≤ 57 := by
    simp only [Char.isDigit, Bool.and_eq_true, decide_eq_true_eq, ge_iff_le,
      UInt32.le_iff_toNat_le] at digit
    exact digit
  simp [isBlank, blankRanges]
  omega

theorem trimStart_cons {c : Char} (marked : isBlank c = false) (cs : List Char) :
    trimStart (c :: cs) = c :: cs :=
  List.dropWhile_cons_of_neg (by simp [marked])

theorem trimStart_padded (width n : Nat) (rest : List Char) :
    trimStart (padded width n ++ rest) = padded width n ++ rest := by
  cases split : padded width n with
  | nil => exact absurd split (padded_ne_nil width n)
  | cons c cs =>
    have member : c ∈ padded width n := by
      rw [split]
      exact List.mem_cons_self ..
    exact trimStart_cons (isBlank_of_isDigit (isDigit_of_mem_padded member)) _

/-! ## Numbers -/

/-- Digits that fill the width, or are followed by something else, are read. -/
theorem readDigits_append {width : Nat} {ds rest : List Char} (nonempty : ds ≠ [])
    (digits : ∀ c ∈ ds, c.isDigit = true) (short : ds.length ≤ width)
    (ends : ds.length = width ∨ EndsDigits rest) :
    readDigits width (ds ++ rest) = .ok (ds, rest) := by
  have taken : ((ds ++ rest).take width).takeWhile Char.isDigit = ds := by
    rw [List.take_append, List.take_of_length_le short]
    obtain full | ends := ends
    · rw [full, Nat.sub_self, List.take_zero]
      exact takeWhile_digits digits (by simp [EndsDigits])
    · refine takeWhile_digits digits fun c first => ends c ?_
      rw [List.head?_take] at first
      split at first
      · cases first
      · exact first
  cases ds with
  | nil => exact absurd rfl nonempty
  | cons d ds =>
    rw [List.cons_append] at taken ⊢
    simp only [readDigits, digits d (List.mem_cons_self ..), reduceIte, taken]
    rw [← List.cons_append, List.drop_left]

theorem readBounded_padded (width low : Nat) {high n : Nat} (positive : 0 < width)
    (fits : n < 10 ^ width) (above : low ≤ n) (below : n ≤ high) (rest : List Char) :
    readBounded width low high (padded width n ++ rest) = .ok (n, rest) := by
  have length := length_padded positive fits
  have read : readDigits width (padded width n ++ rest) = .ok (padded width n, rest) :=
    readDigits_append (padded_ne_nil width n) (fun _ => isDigit_of_mem_padded)
      (Nat.le_of_eq length) (.inl length)
  simp only [readBounded, trimStart_padded, read, ok_bind, ofDigits_padded, above, below, and_self,
    reduceIte]

theorem readSeparator_cons (wanted : Char) (marked : isBlank wanted = false) (rest : List Char) :
    readSeparator wanted (wanted :: rest) = .ok ((), rest) := by
  simp only [readSeparator, trimStart_cons marked, reduceIte]

/-! ## Parts -/

theorem natAbs_lt_yearLimit (d : Date) : d.year.natAbs < yearLimit := by
  have isYear := d.valid.1
  unfold IsYear lastYear at isYear
  unfold yearLimit
  omega

/-- A year's digits are read up to a character that is none, or up to the width. -/
theorem readUnsignedYear_padded {width n : Nat} {rest : List Char} (negative : Bool)
    (inYears : n < yearLimit) (short : (padded 4 n).length ≤ width)
    (ends : (padded 4 n).length = width ∨ EndsDigits rest) :
    readUnsignedYear negative width (padded 4 n ++ rest) =
      .ok (if negative then -(n : Int) else n, rest) := by
  have read := readDigits_append (padded_ne_nil 4 n) (fun _ => isDigit_of_mem_padded) short ends
  simp only [readUnsignedYear, read, ok_bind, ofDigits_padded, inYears, true_or, reduceIte]

/-- A year that begins with a digit has no sign. -/
theorem readYear_padded (n : Nat) (rest : List Char) :
    readYear (padded 4 n ++ rest) = readUnsignedYear false 4 (padded 4 n ++ rest) := by
  rw [readYear, trimStart_padded]
  cases split : padded 4 n with
  | nil => exact absurd split (padded_ne_nil 4 n)
  | cons c cs =>
    have member : c ∈ padded 4 n := by
      rw [split]
      exact List.mem_cons_self ..
    have digit := isDigit_of_mem_padded member
    rw [List.cons_append]
    split
    next minus => cases minus; exact absurd digit (by decide)
    next plus => cases plus; exact absurd digit (by decide)
    next => rfl

theorem endsDigits_cons {c : Char} (other : c.isDigit = false) (rest : List Char) :
    EndsDigits (c :: rest) := by
  rintro _ ⟨⟩
  exact other

theorem readYear_renderYear (d : Date) (rest : List Char) :
    readYear (renderYear d.year ++ '-' :: rest) = .ok (d.year, '-' :: rest) := by
  have inYears := natAbs_lt_yearLimit d
  have ends : EndsDigits ('-' :: rest) := endsDigits_cons (by decide) rest
  have short (cs : List Char) : cs.length ≤ (cs ++ '-' :: rest).length := by
    rw [List.length_append]
    exact Nat.le_add_right ..
  unfold renderYear
  -- Four digits fill the width; behind a sign the year goes on up to the hyphen.
  split
  next plain =>
    have length : (padded 4 d.year.natAbs).length = 4 := length_padded (by decide) (by omega)
    rw [readYear_padded,
      readUnsignedYear_padded false inYears (Nat.le_of_eq length) (.inl length)]
    simp only [Bool.false_eq_true, reduceIte, Int.natAbs_of_nonneg plain.1]
  next signed =>
    by_cases negative : d.year < 0
    · have sign : (-(d.year.natAbs : Int)) = d.year := by omega
      simp only [negative, reduceIte, List.cons_append, readYear,
        trimStart_cons (by decide : isBlank '-' = false),
        readUnsignedYear_padded true inYears (short _) (.inr ends), sign]
    · have sign : (d.year.natAbs : Int) = d.year := by omega
      simp only [negative, reduceIte, List.cons_append, readYear,
        trimStart_cons (by decide : isBlank '+' = false),
        readUnsignedYear_padded false inYears (short _) (.inr ends), sign, Bool.false_eq_true]

/-- Up to nine digits after the point stand for nanoseconds, as if zeros followed them. -/
theorem readFraction_padded {width n : Nat} (positive : 0 < width) (short : width ≤ 9)
    (fits : n < 10 ^ width) :
    readFraction ('.' :: padded width n ++ ['Z']) = .ok (n * 10 ^ (9 - width), ['Z']) := by
  have length := length_padded positive fits
  have ends : EndsDigits ['Z'] := endsDigits_cons (by decide) []
  have read := readDigits_append (padded_ne_nil width n) (fun _ => isDigit_of_mem_padded)
    (Nat.le_trans (Nat.le_of_eq length) short) (.inr ends)
  simp only [List.cons_append, readFraction, read, ok_bind, length, ofDigits_append_zeros,
    ofDigits_padded]
  rfl

theorem readFraction_renderFraction (n : Fin 1000000000) :
    readFraction (renderFraction n ++ ['Z']) = .ok (n.val, ['Z']) := by
  have below := n.isLt
  unfold renderFraction
  split
  next zero => rw [zero]; rfl
  split
  next milli =>
    have exact : n.val / 1000000 * 10 ^ (9 - 3) = n.val := by omega
    rw [readFraction_padded (by decide) (by decide) (by omega), exact]
  split
  next micro =>
    have exact : n.val / 1000 * 10 ^ (9 - 6) = n.val := by omega
    rw [readFraction_padded (by decide) (by decide) (by omega), exact]
  next =>
    have exact : n.val * 10 ^ (9 - 9) = n.val := by omega
    rw [readFraction_padded (by decide) (by decide) (by omega), exact]

/-! ## Whole timestamps -/

theorem readDate_render (d : Date) (rest : List Char) :
    readDate (renderYear d.year ++ '-' :: (padded 2 d.month ++ '-' :: (padded 2 d.day ++ rest))) =
      .ok ((d.year, d.month, d.day), rest) := by
  obtain ⟨-, ⟨monthPositive, monthBelow⟩, dayPositive, dayBelow⟩ := d.valid
  have days : daysInMonth d.year d.month ≤ 31 := by
    unfold daysInMonth
    split
    · split <;> omega
    · split <;> omega
  have dash := readSeparator_cons '-' (by decide)
  have month := readBounded_padded 2 1 (by decide) (by omega) monthPositive monthBelow
  have day := readBounded_padded 2 1 (by decide) (by omega) dayPositive
    (Nat.le_trans dayBelow days)
  simp only [readDate, readYear_renderYear, ok_bind, dash, month, day]

/-- An instant is its own local time where the offset is zero. -/
theorem ofLocal_zero (t : Timestamp) :
    ofLocal t.date (t.hour * 60 + t.minute) t.second t.nanosecond 0 = .ok t := by
  obtain ⟨date, hour, minute, second, nanosecond⟩ := t
  have notBefore : ¬ ((hour * 60 + minute : Nat) : Int) - 0 < 0 := by omega
  have notAfter : ¬ (dayMinutes : Int) ≤ ((hour * 60 + minute : Nat) : Int) - 0 := by
    unfold dayMinutes
    omega
  have sameDay : ((((hour * 60 + minute : Nat) : Int) - 0) % (dayMinutes : Int)).toNat =
      hour * 60 + minute := by
    unfold dayMinutes
    omega
  simp only [ofLocal, notBefore, notAfter, reduceIte, sameDay, Except.ok.injEq, Timestamp.mk.injEq,
    true_and, and_true, Fin.ext_iff]
  omega

theorem read_render (t : Timestamp) : read t.render = .ok t := by
  have colon := readSeparator_cons ':' (by decide)
  have hour := readBounded_padded 2 0 (by decide) (by omega) (Nat.zero_le _)
    (Nat.le_of_lt_succ t.hour.isLt)
  have minute := readBounded_padded 2 0 (by decide) (by omega) (Nat.zero_le _)
    (Nat.le_of_lt_succ t.minute.isLt)
  have second := readBounded_padded 2 0 (by decide) (by omega) (Nat.zero_le _)
    (Nat.le_of_lt_succ t.second.isLt)
  have offset : readOffset (trimStart ['Z']) = .ok (0, []) := by decide
  have dateEnd (rest : List Char) : readDateEnd ('T' :: rest) = .ok ((), rest) := rfl
  have date : Date.of? t.date.year t.date.month t.date.day = some t.date := dif_pos t.date.valid
  simp only [read, render, List.append_assoc, List.cons_append, List.nil_append, readDate_render,
    ok_bind, dateEnd, hour, colon, minute, second, readFraction_renderFraction, offset, date]
  have second := Nat.mod_eq_of_lt t.second.isLt
  have nanosecond := Nat.mod_eq_of_lt t.nanosecond.isLt
  simp only [second, nanosecond]
  exact ofLocal_zero t

end RecipeEngine.Timestamp
