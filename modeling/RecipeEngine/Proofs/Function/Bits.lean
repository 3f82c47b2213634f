import Mathlib.Algebra.Group.Nat.Defs
import Mathlib.Data.List.Basic
import RecipeEngine.Proofs.Function.Base64

/-!
# Base64 texts through their bits

A Base64 text says the bits of its octets, six to a letter and the first bit counting most.  Bits
that the last letter has left over are zero, and padding fills the text up to whole groups of four
(`Base64.IsTextOf`).  Nothing is said here about how such a text is found or read.

Every row of octets has exactly one Base64 text, and that is what `encode` writes
(`Base64.isTextOf_iff`).
-/

namespace RecipeEngine.Base64

/-! ## Bits -/

/-- The last binary digits of a number, the first of them counting most. -/
def bits : Nat → Nat → List Bool
  | 0, _ => []
  | width + 1, n => n.testBit width :: bits width n

@[simp] theorem length_bits (width n : Nat) : (bits width n).length = width := by
  induction width with
  | zero => rfl
  | succ width ih => rw [bits, List.length_cons, ih]

theorem bits_zero (width : Nat) : bits width 0 = List.replicate width false := by
  induction width with
  | zero => rfl
  | succ width ih => rw [bits, ih, Nat.zero_testBit, List.replicate_succ]

theorem bits_eq_iff_testBit {width n m : Nat} :
    bits width n = bits width m ↔ ∀ i < width, n.testBit i = m.testBit i := by
  induction width with
  | zero => simp [bits]
  | succ width ih => rw [bits, bits, List.cons.injEq, ih, Nat.forall_lt_succ_right, and_comm]

/-- Only the binary digits that are asked for matter. -/
theorem bits_eq_iff {width n m : Nat} :
    bits width n = bits width m ↔ n % 2 ^ width = m % 2 ^ width := by
  rw [bits_eq_iff_testBit]
  constructor
  · intro same
    refine Nat.eq_of_testBit_eq fun i => ?_
    rw [Nat.testBit_mod_two_pow, Nat.testBit_mod_two_pow]
    by_cases below : i < width
    · rw [same i below]
    · simp [below]
  · intro same i below
    have digit := congrArg (Nat.testBit · i) same
    simpa [Nat.testBit_mod_two_pow, below] using digit

/-- The digits in front are those of the number without the digits behind. -/
theorem bits_add (front back n : Nat) :
    bits (front + back) n = bits front (n / 2 ^ back) ++ bits back n := by
  induction front with
  | zero => rw [Nat.zero_add, bits, List.nil_append]
  | succ front ih =>
    rw [Nat.succ_add, bits, bits, ih, Nat.testBit_div_two_pow, List.cons_append]

/-- Numbers that fit their width are told apart by their bits. -/
theorem flatMap_bits_inj {width : Nat} (positive : 0 < width) {ns ms : List Nat}
    (fit : ∀ n ∈ ns, n < 2 ^ width) (fit' : ∀ m ∈ ms, m < 2 ^ width)
    (same : ns.flatMap (bits width) = ms.flatMap (bits width)) : ns = ms := by
  induction ns generalizing ms with
  | nil =>
    cases ms with
    | nil => rfl
    | cons m ms =>
      have lengths : 0 = width + (ms.flatMap (bits width)).length := by
        simpa using congrArg List.length same
      omega
  | cons n ns ih =>
    cases ms with
    | nil =>
      have lengths : width + (ns.flatMap (bits width)).length = 0 := by
        simpa using congrArg List.length same
      omega
    | cons m ms =>
      obtain ⟨first, later⟩ := List.append_inj same (by simp)
      rw [bits_eq_iff, Nat.mod_eq_of_lt (fit n List.mem_cons_self),
        Nat.mod_eq_of_lt (fit' m List.mem_cons_self)] at first
      rw [first, ih (fun n member => fit n (List.mem_cons_of_mem _ member))
        (fun m member => fit' m (List.mem_cons_of_mem _ member)) later]

/-! ## Texts -/

/-- The letters of a Base64 text; each stands for its place. -/
def alphabet : List Char :=
  "ABCDEFGHIJKLMNOPQRSTUVWXYZabcdefghijklmnopqrstuvwxyz0123456789+/".toList

/-- How the Base64 text of a row of octets is made up: letters, which stand for numbers, and then
padding. -/
structure IsMadeUp (bytes : List UInt8) (text letters : List Char) (numbers : List Nat)
    (paddings : Nat) : Prop where
  written : text = letters ++ List.replicate paddings '='
  spelled : numbers.map (alphabet[·]?) = letters.map some
  /-- Every group of four is filled. -/
  filled : text.length % 4 = 0
  few : paddings ≤ 2
  /-- The letters say the bits of the octets.  Two bits for each padding are left over, and these
  are zero. -/
  regrouped : numbers.flatMap (bits 6) =
    bytes.flatMap (fun octet => bits 8 octet.toNat) ++ List.replicate (2 * paddings) false

/-- Whether a text is the Base64 text of a row of octets. -/
def IsTextOf (bytes : List UInt8) (text : List Char) : Prop :=
  ∃ letters numbers paddings, IsMadeUp bytes text letters numbers paddings

section

variable {bytes : List UInt8} {text text' letters letters' : List Char}
  {numbers numbers' : List Nat} {paddings paddings' : Nat}

theorem IsMadeUp.lt (madeUp : IsMadeUp bytes text letters numbers paddings) :
    ∀ n ∈ numbers, n < 64 := by
  intro n member
  have isSpelled : alphabet[n]? ∈ letters.map some :=
    madeUp.spelled ▸ List.mem_map_of_mem member
  obtain ⟨c, -, isLetter⟩ := List.mem_map.1 isSpelled
  exact (List.getElem?_eq_some_iff.1 isLetter.symm).1

/-- How many letters and how much padding there are follows from how many octets there are. -/
theorem IsMadeUp.lengths (madeUp : IsMadeUp bytes text letters numbers paddings) :
    6 * numbers.length = 8 * bytes.length + 2 * paddings ∧
      (numbers.length + paddings) % 4 = 0 := by
  have counted := congrArg List.length madeUp.regrouped
  have asLong := congrArg List.length madeUp.spelled
  have filled := madeUp.filled
  rw [List.length_map, List.length_map] at asLong
  rw [madeUp.written, List.length_append, List.length_replicate, ← asLong] at filled
  exact ⟨by simpa [Nat.mul_comm] using counted, filled⟩

/-- A row of octets has at most one Base64 text. -/
theorem IsMadeUp.text_unique (madeUp : IsMadeUp bytes text letters numbers paddings)
    (madeUp' : IsMadeUp bytes text' letters' numbers' paddings') : text = text' := by
  obtain ⟨counted, filled⟩ := madeUp.lengths
  obtain ⟨counted', filled'⟩ := madeUp'.lengths
  have few := madeUp.few
  have few' := madeUp'.few
  obtain rfl : paddings = paddings' := by omega
  obtain rfl : numbers = numbers' :=
    flatMap_bits_inj (by decide) madeUp.lt madeUp'.lt
      (madeUp.regrouped.trans madeUp'.regrouped.symm)
  have same : letters = letters' :=
    List.map_injective_iff.2 (fun _ _ => Option.some.inj)
      (madeUp.spelled.symm.trans madeUp'.spelled)
  rw [madeUp.written, madeUp'.written, same]

end

/-! ## Written texts -/

/-- The character that an octet of a Base64 text is. -/
def character (octet : UInt8) : Char := Char.ofNat octet.toNat

theorem alphabet_eq {n : Nat} (isNumber : n < 64) :
    alphabet[n]? = some (character (symbol n)) := by
  revert n
  decide

theorem map_alphabet {numbers : List Nat} (areNumbers : ∀ n ∈ numbers, n < 64) :
    numbers.map (alphabet[·]?) = ((numbers.map symbol).map character).map some := by
  rw [List.map_map, List.map_map]
  exact List.map_congr_left fun n member => alphabet_eq (areNumbers n member)

/-! ### Regrouping -/

theorem bits_joined (front back m : Nat) {n : Nat} (fits : n < 2 ^ back) :
    bits (front + back) (m * 2 ^ back + n) = bits front m ++ bits back n := by
  have behind : (m * 2 ^ back + n) % 2 ^ back = n % 2 ^ back := by
    rw [Nat.add_comm, Nat.add_mul_mod_self_right]
  have inFront : (m * 2 ^ back + n) / 2 ^ back = m := by
    rw [Nat.add_comm, Nat.add_mul_div_right _ _ (Nat.two_pow_pos back), Nat.div_eq_of_lt fits,
      Nat.zero_add]
  rw [bits_add, inFront, bits_eq_iff.2 behind]

theorem bits_mod (width n : Nat) : bits width (n % 2 ^ width) = bits width n :=
  bits_eq_iff.2 (Nat.mod_mod n _)

section

variable (a b c : UInt8)

/-- The bits of the second number are the last ones of the first octet and some that follow. -/
theorem bits_second {next : Nat} (fits : next < 16) :
    bits 6 (a.toNat % 4 * 16 + next) = bits 2 a.toNat ++ bits 4 next := by
  rw [← bits_mod 2 a.toNat]
  exact bits_joined 2 4 _ fits

theorem bits_third {next : Nat} (fits : next < 4) :
    bits 6 (b.toNat % 16 * 4 + next) = bits 4 b.toNat ++ bits 2 next := by
  rw [← bits_mod 4 b.toNat]
  exact bits_joined 4 2 _ fits

theorem bits_group :
    bits 6 (a.toNat / 4) ++ bits 6 (a.toNat % 4 * 16 + b.toNat / 16) ++
        bits 6 (b.toNat % 16 * 4 + c.toNat / 64) ++ bits 6 (c.toNat % 64) =
      bits 8 a.toNat ++ bits 8 b.toNat ++ bits 8 c.toNat := by
  have second := b.toNat_lt
  have third := c.toNat_lt
  have last : bits 6 (c.toNat % 64) = bits 6 c.toNat := bits_mod 6 c.toNat
  rw [bits_second a (by omega), bits_third b (by omega), last, bits_add 6 2 a.toNat,
    bits_add 4 4 b.toNat, bits_add 2 6 c.toNat]
  simp only [List.append_assoc, Nat.reducePow]

theorem bits_two :
    bits 6 (a.toNat / 4) ++ bits 6 (a.toNat % 4 * 16 + b.toNat / 16) ++ bits 6 (b.toNat % 16 * 4) =
      bits 8 a.toNat ++ bits 8 b.toNat ++ List.replicate 2 false := by
  have second := b.toNat_lt
  have last : bits 6 (b.toNat % 16 * 4 + 0) = bits 4 b.toNat ++ bits 2 0 :=
    bits_third b (by decide)
  rw [Nat.add_zero] at last
  rw [bits_second a (by omega), last, bits_add 6 2 a.toNat, bits_add 4 4 b.toNat, bits_zero]
  simp only [List.append_assoc, Nat.reducePow]

theorem bits_one :
    bits 6 (a.toNat / 4) ++ bits 6 (a.toNat % 4 * 16) =
      bits 8 a.toNat ++ List.replicate 4 false := by
  have last : bits 6 (a.toNat % 4 * 16 + 0) = bits 2 a.toNat ++ bits 4 0 :=
    bits_second a (by decide)
  rw [Nat.add_zero] at last
  rw [last, bits_add 6 2 a.toNat, bits_zero]
  simp only [List.append_assoc, Nat.reducePow]

end

/-- The numbers and the padding that the encoder writes say the bits of the octets. -/
theorem exists_numbers (bytes : List UInt8) :
    ∃ (numbers : List Nat) (paddings : Nat),
      encode bytes = numbers.map symbol ++ List.replicate paddings padding ∧
        (∀ n ∈ numbers, n < 64) ∧ paddings ≤ 2 ∧
        numbers.flatMap (bits 6) = bytes.flatMap (fun octet => bits 8 octet.toNat) ++
          List.replicate (2 * paddings) false := by
  fun_induction encode bytes with
  | case1 => exact ⟨[], 0, rfl, by simp, by decide, rfl⟩
  | case2 a =>
    have bound := a.toNat_lt
    have areNumbers : ∀ n ∈ [a.toNat / 4, a.toNat % 4 * 16], n < 64 := by simp; omega
    refine ⟨[a.toNat / 4, a.toNat % 4 * 16], 2, rfl, areNumbers, Nat.le_refl 2, ?_⟩
    simpa using bits_one a
  | case3 a b =>
    have first := a.toNat_lt
    have second := b.toNat_lt
    have areNumbers : ∀ n ∈ [a.toNat / 4, a.toNat % 4 * 16 + b.toNat / 16, b.toNat % 16 * 4],
        n < 64 := by simp; omega
    refine ⟨[a.toNat / 4, a.toNat % 4 * 16 + b.toNat / 16, b.toNat % 16 * 4], 1, rfl, areNumbers,
      by decide, ?_⟩
    simpa using bits_two a b
  | case4 a b c rest ih =>
    have first := a.toNat_lt
    have second := b.toNat_lt
    have third := c.toNat_lt
    obtain ⟨numbers, paddings, written, areNumbers, few, regrouped⟩ := ih
    refine ⟨a.toNat / 4 :: (a.toNat % 4 * 16 + b.toNat / 16) ::
      (b.toNat % 16 * 4 + c.toNat / 64) :: c.toNat % 64 :: numbers, paddings,
      by rw [written]; rfl, ?_, few, ?_⟩
    · simp only [List.forall_mem_cons]
      exact ⟨by omega, by omega, by omega, by omega, areNumbers⟩
    · have group := congrArg (· ++ numbers.flatMap (bits 6)) (bits_group a b c)
      simp only [List.append_assoc, regrouped] at group
      simpa only [List.flatMap_cons, List.append_assoc, regrouped] using group

theorem isTextOf_encode (bytes : List UInt8) : IsTextOf bytes ((encode bytes).map character) := by
  obtain ⟨numbers, paddings, written, areNumbers, few, regrouped⟩ := exists_numbers bytes
  refine ⟨(numbers.map symbol).map character, numbers, paddings, ?_, map_alphabet areNumbers, ?_,
    few, regrouped⟩
  · rw [written, List.map_append, List.map_replicate]
    rfl
  · rw [List.length_map, length_encode_mod]

/-- Every row of octets has one Base64 text, and it is what the encoder writes. -/
theorem isTextOf_iff {bytes : List UInt8} {text : List Char} :
    IsTextOf bytes text ↔ text = (encode bytes).map character := by
  constructor
  · rintro ⟨letters, numbers, paddings, madeUp⟩
    obtain ⟨letters', numbers', paddings', madeUp'⟩ := isTextOf_encode bytes
    exact madeUp.text_unique madeUp'
  · rintro rfl
    exact isTextOf_encode bytes

end RecipeEngine.Base64
