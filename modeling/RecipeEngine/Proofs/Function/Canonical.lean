import RecipeEngine.Proofs.Decode.Reader
import RecipeEngine.Proofs.Function.Bits
import RecipeEngine.Proofs.Function.RoundTrip

/-!
# Canonical Base64 texts

The decoder accepts what the encoder writes and nothing else (`Base64.decode_eq_ok_iff`): a symbol
stands for one number, padding stands only where it fills the last group, and bits that the last
symbol has left over must be zero.

For the function on strings this means that a string is decoded exactly if it is the Base64 text of
some octets, which are then the only ones (`Builtin.decodes_canonical_texts`).
-/

namespace RecipeEngine

namespace Base64

open Decode (bind_eq_ok_iff)
open Text (toNat_octet)

/-! ## Symbols -/

theorem symbol_of_value? {octet : UInt8} {n : Nat} (isSymbol : value? octet = some n) :
    n < 64 ∧ octet = symbol n := by
  have all : ∀ k < 256, ∀ n ∈ value? (UInt8.ofNat k), n < 64 ∧ UInt8.ofNat k = symbol n := by
    decide +kernel
  have here := all octet.toNat octet.toNat_lt n
  rw [UInt8.ofNat_toNat] at here
  exact here isSymbol

theorem valueAt_eq_ok_iff {offset : Nat} {octet : UInt8} {n : Nat} :
    valueAt offset octet = .ok n ↔ n < 64 ∧ octet = symbol n := by
  constructor
  · intro read
    rw [valueAt] at read
    split at read
    next m isSymbol =>
      cases read
      exact symbol_of_value? isSymbol
    next => cases read
  · rintro ⟨isNumber, rfl⟩
    exact valueAt_symbol offset isNumber

/-! ## Groups -/

section

variable {a b c d : Nat} (isA : a < 64) (isB : b < 64) (isC : c < 64) (isD : d < 64)

include isA isB

theorem toNat_first : (UInt8.ofNat (a * 4 + b / 16)).toNat = a * 4 + b / 16 :=
  toNat_octet (by omega)

/-- One octet leaves four bits of its second symbol over. -/
theorem encode_one (unused : b % 16 = 0) :
    encode [UInt8.ofNat (a * 4 + b / 16)] = [symbol a, symbol b, padding, padding] := by
  simp only [encode, toNat_first isA isB]
  rw [show (a * 4 + b / 16) / 4 = a by omega, show (a * 4 + b / 16) % 4 * 16 = b by omega]

include isC

omit isA isB in
theorem toNat_second : (UInt8.ofNat (b % 16 * 16 + c / 4)).toNat = b % 16 * 16 + c / 4 :=
  toNat_octet (by omega)

/-- Two octets leave two bits of their third symbol over. -/
theorem encode_two (unused : c % 4 = 0) :
    encode [UInt8.ofNat (a * 4 + b / 16), UInt8.ofNat (b % 16 * 16 + c / 4)] =
      [symbol a, symbol b, symbol c, padding] := by
  simp only [encode, toNat_first isA isB, toNat_second isC]
  rw [show (a * 4 + b / 16) / 4 = a by omega,
    show (a * 4 + b / 16) % 4 * 16 + (b % 16 * 16 + c / 4) / 16 = b by omega,
    show (b % 16 * 16 + c / 4) % 16 * 4 = c by omega]

include isD

theorem encode_octetsOf (rest : List UInt8) :
    encode (octetsOf a b c d ++ rest) =
      symbol a :: symbol b :: symbol c :: symbol d :: encode rest := by
  have third : (UInt8.ofNat (c % 4 * 64 + d)).toNat = c % 4 * 64 + d := toNat_octet (by omega)
  simp only [octetsOf, List.cons_append, List.nil_append, encode, toNat_first isA isB,
    toNat_second isC, third]
  rw [show (a * 4 + b / 16) / 4 = a by omega,
    show (a * 4 + b / 16) % 4 * 16 + (b % 16 * 16 + c / 4) / 16 = b by omega,
    show (b % 16 * 16 + c / 4) % 16 * 4 + (c % 4 * 64 + d) / 64 = c by omega,
    show (c % 4 * 64 + d) % 64 = d by omega]

end

/-- A group that is decoded holds the symbols that its octets are encoded with. -/
theorem encode_of_decodeGroup {offset : Nat} {a b c d : UInt8} {front : List UInt8}
    (decoded : decodeGroup offset a b c d = .ok front) (back : List UInt8) :
    encode (front ++ back) = a :: b :: c :: d :: encode back := by
  simp only [decodeGroup, bind_eq_ok_iff, valueAt_eq_ok_iff] at decoded
  obtain ⟨_, ⟨isA, rfl⟩, _, ⟨isB, rfl⟩, _, ⟨isC, rfl⟩, _, ⟨isD, rfl⟩, same⟩ := decoded
  cases same
  exact encode_octetsOf isA isB isC isD back

/-! ## The last group -/

/-- What is read of a last group are symbols and then padding.  Behind padding there is nothing but
padding. -/
theorem eq_of_readLastGroup {offset place paddings : Nat} {symbols : List UInt8}
    {group : LastGroup} (read : readLastGroup offset place paddings symbols = .ok group) :
    (∀ n ∈ group.numbers, n < 64) ∧ (0 < paddings → group.numbers = []) ∧
      paddings ≤ group.paddings ∧
      symbols = group.numbers.map symbol ++
        List.replicate (group.paddings - paddings) padding := by
  induction symbols generalizing place paddings group with
  | nil =>
    cases read
    simp
  | cons octet rest ih =>
    rw [readLastGroup] at read
    split at read
    next isPadding =>
      split at read
      next => cases read
      next =>
        obtain ⟨-, only, more, behind⟩ := ih read
        have noNumbers := only (Nat.succ_pos paddings)
        have counted : group.paddings - paddings = group.paddings - (paddings + 1) + 1 := by omega
        rw [noNumbers, List.map_nil, List.nil_append] at behind
        refine ⟨by simp [noNumbers], fun _ => noNumbers, Nat.le_of_succ_le more, ?_⟩
        rw [noNumbers, counted, isPadding, behind]
        rfl
    next isOther =>
      split at read
      next => cases read
      next noPadding =>
        obtain rfl : paddings = 0 := Nat.eq_zero_of_not_pos noPadding
        simp only [bind_eq_ok_iff, valueAt_eq_ok_iff] at read
        obtain ⟨n, ⟨isNumber, rfl⟩, later, readLater, same⟩ := read
        cases same
        obtain ⟨areNumbers, -, -, rfl⟩ := ih readLater
        exact ⟨List.forall_mem_cons.2 ⟨isNumber, areNumbers⟩, (absurd · (Nat.lt_irrefl 0)),
          Nat.zero_le _, rfl⟩

theorem encode_of_octets {offset : Nat} {group : LastGroup} {bytes : List UInt8}
    (areNumbers : ∀ n ∈ group.numbers, n < 64) (decoded : group.octets offset = .ok bytes) :
    encode bytes = group.numbers.map symbol ++ List.replicate group.paddings padding := by
  obtain ⟨numbers, paddings⟩ := group
  -- One case for each number of symbols that a last group may hold.
  match numbers with
  | [] => cases decoded
  | [_] => cases decoded
  | [a, b] =>
    obtain ⟨isA, isB, -⟩ := by simpa only [List.forall_mem_cons] using areNumbers
    simp only [LastGroup.octets, List.length_cons, List.length_nil, ite_not] at decoded
    split at decoded
    next filled =>
      split at decoded
      next unused =>
        cases decoded
        obtain rfl : paddings = 2 := by omega
        exact encode_one isA isB unused
      next => cases decoded
    next => cases decoded
  | [a, b, c] =>
    obtain ⟨isA, isB, isC, -⟩ := by simpa only [List.forall_mem_cons] using areNumbers
    simp only [LastGroup.octets, List.length_cons, List.length_nil, ite_not] at decoded
    split at decoded
    next filled =>
      split at decoded
      next unused =>
        cases decoded
        obtain rfl : paddings = 1 := by omega
        exact encode_two isA isB isC unused
      next => cases decoded
    next => cases decoded
  | a :: b :: c :: d :: more =>
    obtain ⟨isA, isB, isC, isD, -⟩ := by simpa only [List.forall_mem_cons] using areNumbers
    simp only [LastGroup.octets, List.length_cons, ite_not] at decoded
    split at decoded
    next filled =>
      cases decoded
      obtain rfl : more = [] := List.eq_nil_of_length_eq_zero (by omega)
      obtain rfl : paddings = 0 := by rw [List.length_nil] at filled; omega
      exact encode_octetsOf isA isB isC isD []
    next => cases decoded

theorem encode_of_decodeLastGroup {offset : Nat} {symbols bytes : List UInt8}
    (decoded : decodeLastGroup offset symbols = .ok bytes) : encode bytes = symbols := by
  obtain ⟨group, read, octets⟩ := bind_eq_ok_iff.1 decoded
  obtain ⟨areNumbers, -, -, rfl⟩ := eq_of_readLastGroup read
  exact encode_of_octets areNumbers octets

/-! ## Whole texts -/

theorem encode_of_decodeFrom {offset : Nat} {text bytes : List UInt8}
    (decoded : decodeFrom offset text = .ok bytes) : encode bytes = text := by
  fun_induction decodeFrom offset text generalizing bytes with
  | case1 =>
    cases decoded
    rfl
  | case2 offset a b c d e rest ih =>
    obtain ⟨front, group, decoded⟩ := bind_eq_ok_iff.1 decoded
    obtain ⟨back, later, same⟩ := bind_eq_ok_iff.1 decoded
    cases same
    rw [encode_of_decodeGroup group, ih later]
  | case3 => exact encode_of_decodeLastGroup decoded

/-- The decoder accepts what the encoder writes and nothing else. -/
theorem decode_eq_ok_iff {text bytes : List UInt8} :
    decode text = .ok bytes ↔ text = encode bytes := by
  constructor
  · intro decoded
    rw [decode] at decoded
    split at decoded
    next last isLast =>
      split at decoded
      next => cases decoded
      next => exact (encode_of_decodeFrom decoded).symm
    next isEmpty =>
      cases decoded
      exact List.getLast?_eq_none_iff.1 isEmpty
  · rintro rfl
    exact decode_encode bytes

/-- The characters of a text are decoded as the octets whose Base64 text they are. -/
theorem decode_octets_eq_ok_iff {text : List Char} {bytes : List UInt8} :
    decode (Text.octets text) = .ok bytes ↔ IsTextOf bytes text := by
  have written : Text.octets ((encode bytes).map character) = encode bytes :=
    Text.octets_singles (forall_mem_encode toNat_symbol_lt (by decide) bytes)
  rw [decode_eq_ok_iff, isTextOf_iff]
  constructor
  · intro same
    exact Text.octets_injective (same.trans written.symm)
  · rintro rfl
    exact written

theorem IsTextOf.unique {text : List Char} {bytes bytes' : List UInt8}
    (isText : IsTextOf bytes text) (isText' : IsTextOf bytes' text) : bytes = bytes' :=
  Except.ok.inj ((decode_octets_eq_ok_iff.2 isText).symm.trans (decode_octets_eq_ok_iff.2 isText'))

end Base64

/-! ## Strings -/

/-- Whether octets are the UTF-8 form of a text. -/
def Text.IsUtf8 (bytes : List UInt8) : Prop := ∃ cs, Text.octets cs = bytes

namespace Builtin

open Base64 (IsTextOf)
open Text

section

variable {t : String} {bytes bytes' : List UInt8}

theorem decodeText_of_isTextOf (isText : IsTextOf bytes t.toList) :
    decodeText (.string t) = .value (.string (String.ofList (ofOctetsLenient bytes))) := by
  have decoded := Base64.decode_octets_eq_ok_iff.2 isText
  simp only [decodeText, onText, textOfBase64, decoded]

/-- A string is refused with the decoder's words if it is no Base64 text. -/
theorem decodeText_of_not_isTextOf (noText : ¬ ∃ bytes, IsTextOf bytes t.toList) :
    ∃ cause, decodeText (.string t) = .failure ⟨(Refusal.notBase64 cause).message⟩ := by
  cases decoded : Base64.decode (octets t.toList) with
  | ok bytes => exact absurd ⟨bytes, Base64.decode_octets_eq_ok_iff.1 decoded⟩ noText
  | error cause => exact ⟨cause, by simp only [decodeText, onText, textOfBase64, decoded]⟩

/-- If the octets of a Base64 text are those of a text, this text is encoded as it. -/
theorem encodeText_of_isTextOf (isText : IsTextOf bytes t.toList) (isUtf8 : IsUtf8 bytes) :
    encodeText (.string (String.ofList (ofOctetsLenient bytes))) = .value (.string t) := by
  obtain ⟨cs, rfl⟩ := isUtf8
  have written : base64OfText (String.ofList cs) = t := by
    rw [base64OfText, String.toList_ofList, ← String.toList_inj, String.toList_ofList]
    exact (Base64.isTextOf_iff.1 isText).symm
  rw [ofOctetsLenient_octets, encodeText_string, written]

end

/-- A string is decoded exactly if it is the Base64 text of some octets.  These octets are the only
ones, and what the decoder gives is their lenient reading; where they are the octets of a text, that
text is encoded as the string again, so that two strings of this kind are never decoded alike.  Any
other string is refused. -/
theorem decodes_canonical_texts (t : String) :
    ((∃ v, decodeText (.string t) = .value v) ↔ ∃ bytes, IsTextOf bytes t.toList) ∧
      (∀ bytes, IsTextOf bytes t.toList →
        (∀ bytes', IsTextOf bytes' t.toList → bytes' = bytes) ∧
          decodeText (.string t) = .value (.string (String.ofList (ofOctetsLenient bytes))) ∧
          (IsUtf8 bytes →
            encodeText (.string (String.ofList (ofOctetsLenient bytes))) = .value (.string t))) ∧
      ((¬ ∃ bytes, IsTextOf bytes t.toList) →
        ∃ cause, decodeText (.string t) = .failure ⟨(Refusal.notBase64 cause).message⟩) ∧
      ∀ t' bytes bytes', t ≠ t' → IsTextOf bytes t.toList → IsTextOf bytes' t'.toList →
        IsUtf8 bytes → IsUtf8 bytes' → decodeText (.string t) ≠ decodeText (.string t') := by
  refine ⟨⟨?_, ?_⟩, ?_, decodeText_of_not_isTextOf, ?_⟩
  · rintro ⟨v, decoded⟩
    by_contra noText
    obtain ⟨cause, refused⟩ := decodeText_of_not_isTextOf noText
    rw [refused] at decoded
    cases decoded
  · rintro ⟨bytes, isText⟩
    exact ⟨_, decodeText_of_isTextOf isText⟩
  · intro bytes isText
    exact ⟨fun _ isText' => isText'.unique isText, decodeText_of_isTextOf isText,
      encodeText_of_isTextOf isText⟩
  · intro t' bytes bytes' different isText isText' isUtf8 isUtf8' same
    rw [decodeText_of_isTextOf isText, decodeText_of_isTextOf isText', Outcome.value.injEq,
      Json.string.injEq] at same
    have encoded := encodeText_of_isTextOf isText isUtf8
    rw [same, encodeText_of_isTextOf isText' isUtf8', Outcome.value.injEq,
      Json.string.injEq] at encoded
    exact different encoded.symm

/-- The text of a letter of two octets.  With a bit set among those that are left over it is
refused. -/
theorem decodes_canonical_texts_accented :
    IsTextOf [0xC3, 0xA9] "w6k=".toList ∧ IsUtf8 [0xC3, 0xA9] ∧
      decodeText (.string "w6k=") = .value (.string "é") ∧
      encodeText (.string "é") = .value (.string "w6k=") ∧
      (¬ ∃ bytes, IsTextOf bytes "w6l=".toList) ∧
      (∃ cause, decodeText (.string "w6l=") = .failure ⟨(Refusal.notBase64 cause).message⟩) ∧
      decodeText (.string "w6k=") ≠ decodeText (.string "w6g=") := by
  have isText : IsTextOf [0xC3, 0xA9] "w6k=".toList :=
    ⟨['w', '6', 'k'], [48, 58, 36], 1, rfl, by decide, by decide, by decide, by decide⟩
  have isText' : IsTextOf [0xC3, 0xA8] "w6g=".toList :=
    ⟨['w', '6', 'g'], [48, 58, 32], 1, rfl, by decide, by decide, by decide, by decide⟩
  have isUtf8 : IsUtf8 [0xC3, 0xA9] := ⟨['é'], by decide⟩
  have isUtf8' : IsUtf8 [0xC3, 0xA8] := ⟨['è'], by decide⟩
  obtain ⟨-, accepted, -, apart⟩ := decodes_canonical_texts "w6k="
  obtain ⟨-, decoded, encoded⟩ := accepted _ isText
  obtain ⟨acceptable, -, refused, -⟩ := decodes_canonical_texts "w6l="
  have noText : ¬ ∃ bytes, IsTextOf bytes "w6l=".toList := by
    rw [← acceptable]
    rintro ⟨v, decoded⟩
    have gives : decodeText (.string "w6l=") =
        .failure ⟨(Refusal.notBase64 (.badLastSymbol 0x6C 2)).message⟩ := by decide
    rw [gives] at decoded
    cases decoded
  exact ⟨isText, isUtf8, decoded, encoded isUtf8, noText, refused noText,
    apart "w6g=" _ _ (by decide) isText isText' isUtf8 isUtf8'⟩

end Builtin

end RecipeEngine
