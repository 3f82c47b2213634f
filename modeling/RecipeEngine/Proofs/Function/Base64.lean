import RecipeEngine.Function.Base64

/-!
# Base64 back and forth

What `encode` writes, `decode` reads back as the octets that were encoded (`decode_encode`).  A
group of three octets is regrouped into the numbers of four symbols and back (`octetsOf_symbols`);
in a last group of one or two octets the bits that are left over are zero, and padding fills the
group.
-/

namespace RecipeEngine.Base64

/-! ## Symbols -/

theorem value?_symbol {n : Nat} (isNumber : n < 64) : value? (symbol n) = some n := by
  revert n
  decide

theorem symbol_ne_padding {n : Nat} (isNumber : n < 64) : symbol n ≠ padding := by
  revert n
  decide

theorem toNat_symbol_lt (n : Nat) : (symbol n).toNat < 0x80 := by
  by_cases isNumber : n < 64
  · revert n
    decide
  · have slash : symbol n = 0x2F := by
      simp only [symbol, show ¬ n < 26 by omega, show ¬ n < 52 by omega, show ¬ n < 62 by omega,
        show ¬ n = 62 by omega, reduceIte]
    rw [slash]
    decide

theorem valueAt_symbol (offset : Nat) {n : Nat} (isNumber : n < 64) :
    valueAt offset (symbol n) = .ok n := by
  rw [valueAt, value?_symbol isNumber]

/-! ## Groups -/

theorem ofNat_eq {n : Nat} {octet : UInt8} (same : n = octet.toNat) : UInt8.ofNat n = octet := by
  rw [same, UInt8.ofNat_toNat]

/-- The first octet of a group is put together from the first two symbols. -/
theorem ofNat_first (a : UInt8) (next : Nat) (small : next < 16) :
    UInt8.ofNat (a.toNat / 4 * 4 + (a.toNat % 4 * 16 + next) / 16) = a :=
  ofNat_eq (by omega)

/-- The second octet of a group is put together from the second and third symbols. -/
theorem ofNat_second (a b : UInt8) (next : Nat) (small : next < 4) :
    UInt8.ofNat ((a.toNat % 4 * 16 + b.toNat / 16) % 16 * 16 + (b.toNat % 16 * 4 + next) / 4) = b :=
  have bound := b.toNat_lt
  ofNat_eq (by omega)

/-- The third octet of a group is put together from the third and fourth symbols. -/
theorem ofNat_third (b c : UInt8) :
    UInt8.ofNat ((b.toNat % 16 * 4 + c.toNat / 64) % 4 * 64 + c.toNat % 64) = c :=
  have bound := c.toNat_lt
  ofNat_eq (by omega)

theorem decodeGroup_encode (offset : Nat) (a b c : UInt8) :
    decodeGroup offset (symbol (a.toNat / 4)) (symbol (a.toNat % 4 * 16 + b.toNat / 16))
      (symbol (b.toNat % 16 * 4 + c.toNat / 64)) (symbol (c.toNat % 64)) = .ok [a, b, c] := by
  have first := a.toNat_lt
  have second := b.toNat_lt
  have third := c.toNat_lt
  rw [decodeGroup, valueAt_symbol _ (by omega), valueAt_symbol _ (by omega),
    valueAt_symbol _ (by omega), valueAt_symbol _ (by omega)]
  show Except.ok (octetsOf _ _ _ _) = _
  rw [octetsOf, ofNat_first a _ (by omega), ofNat_second a b _ (by omega), ofNat_third b c]

/-! ## The last group -/

/-- Padding is counted where it may stand. -/
theorem readLastGroup_paddings (offset paddings count : Nat) {place : Nat} (late : 2 ≤ place) :
    readLastGroup offset place paddings (List.replicate count padding) =
      .ok ⟨[], paddings + count⟩ := by
  induction count generalizing place paddings with
  | zero => rfl
  | succ count ih =>
    rw [List.replicate_succ, readLastGroup, if_pos rfl, if_neg (by omega), ih _ (by omega),
      Nat.add_right_comm, Nat.add_assoc]

theorem readLastGroup_symbols (offset count : Nat) {place : Nat} {numbers : List Nat}
    (areNumbers : ∀ n ∈ numbers, n < 64) (late : 2 ≤ place + numbers.length) :
    readLastGroup offset place 0 (numbers.map symbol ++ List.replicate count padding) =
      .ok ⟨numbers, count⟩ := by
  induction numbers generalizing place with
  | nil =>
    have late : 2 ≤ place := late
    rw [List.map_nil, List.nil_append, readLastGroup_paddings offset 0 count late, Nat.zero_add]
  | cons n numbers ih =>
    obtain ⟨isNumber, areNumbers⟩ := List.forall_mem_cons.1 areNumbers
    rw [List.length_cons] at late
    rw [List.map_cons, List.cons_append, readLastGroup, if_neg (symbol_ne_padding isNumber),
      if_neg (Nat.lt_irrefl 0), valueAt_symbol _ isNumber, ih areNumbers (by omega)]
    rfl

theorem decodeLastGroup_symbols (offset count : Nat) {numbers : List Nat}
    (areNumbers : ∀ n ∈ numbers, n < 64) (enough : 2 ≤ numbers.length) :
    decodeLastGroup offset (numbers.map symbol ++ List.replicate count padding) =
      LastGroup.octets offset ⟨numbers, count⟩ := by
  rw [decodeLastGroup, readLastGroup_symbols offset count areNumbers (by omega)]
  rfl

/-- A last group of one octet: the four bits that the second symbol does not need are zero. -/
theorem decodeLastGroup_one (offset : Nat) (a : UInt8) :
    decodeLastGroup offset (encode [a]) = .ok [a] := by
  have bound := a.toNat_lt
  have areNumbers : ∀ n ∈ [a.toNat / 4, a.toNat % 4 * 16], n < 64 := by simp; omega
  have unused : ¬ a.toNat % 4 * 16 % 16 ≠ 0 := by omega
  refine (decodeLastGroup_symbols offset 2 areNumbers (Nat.le_refl 2)).trans ?_
  simp only [LastGroup.octets, List.length_cons, List.length_nil, not_true_eq_false, reduceIte,
    unused]
  exact congrArg (fun octet => Except.ok [octet]) (ofNat_first a 0 (by omega))

/-- A last group of two octets: the two bits that the third symbol does not need are zero. -/
theorem decodeLastGroup_two (offset : Nat) (a b : UInt8) :
    decodeLastGroup offset (encode [a, b]) = .ok [a, b] := by
  have first := a.toNat_lt
  have second := b.toNat_lt
  have areNumbers : ∀ n ∈ [a.toNat / 4, a.toNat % 4 * 16 + b.toNat / 16, b.toNat % 16 * 4],
      n < 64 := by simp; omega
  have unused : ¬ b.toNat % 16 * 4 % 4 ≠ 0 := by omega
  refine (decodeLastGroup_symbols offset 1 areNumbers (by simp)).trans ?_
  simp only [LastGroup.octets, List.length_cons, List.length_nil, not_true_eq_false, reduceIte,
    unused]
  rw [ofNat_first a _ (by omega)]
  exact congrArg (fun octet => Except.ok [a, octet]) (ofNat_second a b 0 (by omega))

theorem decodeLastGroup_three (offset : Nat) (a b c : UInt8) :
    decodeLastGroup offset (encode [a, b, c]) = .ok [a, b, c] := by
  have first := a.toNat_lt
  have second := b.toNat_lt
  have third := c.toNat_lt
  have areNumbers : ∀ n ∈ [a.toNat / 4, a.toNat % 4 * 16 + b.toNat / 16,
      b.toNat % 16 * 4 + c.toNat / 64, c.toNat % 64], n < 64 := by simp; omega
  refine (decodeLastGroup_symbols offset 0 areNumbers (by simp)).trans ?_
  simp only [LastGroup.octets, List.length_cons, List.length_nil, not_true_eq_false, reduceIte]
  rw [octetsOf, ofNat_first a _ (by omega), ofNat_second a b _ (by omega), ofNat_third b c]

/-! ## Whole texts -/

theorem encode_ne_nil (octet : UInt8) (rest : List UInt8) : encode (octet :: rest) ≠ [] := by
  match rest with
  | [] => simp [encode]
  | [_] => simp [encode]
  | _ :: _ :: _ => simp [encode]

theorem decodeFrom_encode (bytes : List UInt8) (offset : Nat) :
    decodeFrom offset (encode bytes) = .ok bytes := by
  -- Group by group, as the encoder goes; the last group is read by itself.
  fun_induction encode bytes generalizing offset with
  | case1 => rfl
  | case2 a => exact decodeLastGroup_one offset a
  | case3 a b => exact decodeLastGroup_two offset a b
  | case4 a b c rest ih =>
    cases rest with
    | nil => exact decodeLastGroup_three offset a b c
    | cons d rest =>
      obtain ⟨symbol, symbols, more⟩ := List.exists_cons_of_ne_nil (encode_ne_nil d rest)
      have later := ih (offset + 4)
      rw [more] at later ⊢
      rw [decodeFrom, decodeGroup_encode, later]
      rfl

/-- An encoded text has no group that is not filled. -/
theorem length_encode_mod (bytes : List UInt8) : (encode bytes).length % 4 = 0 := by
  fun_induction encode bytes with
  | case1 => rfl
  | case2 a => simp
  | case3 a b => simp
  | case4 a b c rest ih =>
    simp only [List.length_cons]
    omega

/-- Every row of octets is read back from its Base64 text. -/
theorem decode_encode (bytes : List UInt8) : decode (encode bytes) = .ok bytes := by
  cases bytes with
  | nil => rfl
  | cons octet rest =>
    obtain ⟨symbol, symbols, text⟩ := List.exists_cons_of_ne_nil (encode_ne_nil octet rest)
    have whole := length_encode_mod (octet :: rest)
    rw [← decodeFrom_encode (octet :: rest) 0, decode, text, List.getLast?_cons]
    rw [text] at whole
    exact if_neg fun alone => by omega

/-- What holds of symbols and of padding holds of every octet of a Base64 text. -/
theorem forall_mem_encode {motive : UInt8 → Prop} (symbols : ∀ n, motive (symbol n))
    (padded : motive padding) (bytes : List UInt8) : ∀ octet ∈ encode bytes, motive octet := by
  fun_induction encode bytes with
  | case1 => simp
  | case2 a => simp [symbols, padded]
  | case3 a b => simp [symbols, padded]
  | case4 a b c rest ih => simpa [symbols] using ih

end RecipeEngine.Base64
