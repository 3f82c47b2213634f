import Mathlib.Tactic.IntervalCases
import RecipeEngine.Text.Octets

/-!
# Text through its octets

The octets of a text are read back as that text, with no broken spot (`Text.ofOctets?_octets`).  A
character below 0x80 is one octet, and every octet of another character is at least 0x80, so an
octet below 0x80 in the form of a text is a character of it (`Text.mem_of_mem_octets`).
-/

namespace RecipeEngine.Text

@[simp] theorem octets_nil : octets [] = [] := rfl

@[simp] theorem octets_cons (c : Char) (cs : List Char) :
    octets (c :: cs) = String.utf8EncodeChar c ++ octets cs := rfl

theorem octets_append (cs ds : List Char) : octets (cs ++ ds) = octets cs ++ octets ds :=
  List.flatMap_append

theorem octets_eq_nil_iff {cs : List Char} : octets cs = [] ↔ cs = [] := by
  cases cs with
  | nil => exact iff_of_true rfl rfl
  | cons c cs => simp [String.utf8EncodeChar_ne_nil]

/-! ## First octets -/

theorem toNat_octet {n : Nat} (fits : n < 256) : (UInt8.ofNat n).toNat = n :=
  UInt8.toNat_ofNat_of_lt' fits

theorem lead_single {n : Nat} (small : n ≤ 0x7F) :
    lead (UInt8.ofNat n) = ([some (Char.ofNat n)], none) := by
  have value := toNat_octet (n := n) (by omega)
  simp only [lead, value, Nat.lt_succ_of_le small, reduceIte]

theorem lead_of_two {n : Nat} (low : 2 ≤ n) (high : n < 32) :
    lead (UInt8.ofNat (n + 0xC0)) = ([], some ⟨0, 0x80, 0xBF, n⟩) := by
  interval_cases n <;> rfl

/-- The second octet of three leaves out overlong forms and surrogates. -/
theorem lead_of_three {n : Nat} (high : n < 16) :
    lead (UInt8.ofNat (n + 0xE0)) =
      ([], some ⟨1, if n = 0 then 0xA0 else 0x80, if n = 13 then 0x9F else 0xBF, n⟩) := by
  interval_cases n <;> rfl

/-- The second octet of four leaves out overlong forms and code points above the last one. -/
theorem lead_of_four {n : Nat} (high : n ≤ 4) :
    lead (UInt8.ofNat (n + 0xF0)) =
      ([], some ⟨2, if n = 0 then 0x90 else 0x80, if n = 4 then 0x8F else 0xBF, n⟩) := by
  interval_cases n <;> rfl

theorem decodeFrom_lead {octet : UInt8} {p : Pending} (first : lead octet = ([], some p))
    (rest : List UInt8) : decodeFrom none (octet :: rest) = decodeFrom (some p) rest := by
  simp only [decodeFrom, first, List.nil_append]

/-! ## Later octets -/

section

variable {later low high code : Nat} (n : Nat) (rest : List UInt8)

theorem decodeFrom_continued (above : low ≤ n % 64 + 0x80) (below : n % 64 + 0x80 ≤ high) :
    decodeFrom (some ⟨later + 1, low, high, code⟩) (UInt8.ofNat (n % 64 + 0x80) :: rest) =
      decodeFrom (some ⟨later, 0x80, 0xBF, code * 64 + n % 64⟩) rest := by
  have value := toNat_octet (n := n % 64 + 0x80) (by omega)
  have part : (n % 64 + 0x80) % 64 = n % 64 := by omega
  simp only [decodeFrom, value, above, below, and_self, reduceIte, part]

theorem decodeFrom_completed (above : low ≤ n % 64 + 0x80) (below : n % 64 + 0x80 ≤ high) :
    decodeFrom (some ⟨0, low, high, code⟩) (UInt8.ofNat (n % 64 + 0x80) :: rest) =
      some (Char.ofNat (code * 64 + n % 64)) :: decodeFrom none rest := by
  have value := toNat_octet (n := n % 64 + 0x80) (by omega)
  have part : (n % 64 + 0x80) % 64 = n % 64 := by omega
  simp only [decodeFrom, value, above, below, and_self, reduceIte, part]

end

/-! ## Characters -/

/-- A code point is no surrogate and at most the last one. -/
theorem toNat_isCodePoint (c : Char) : c.toNat < 0xD800 ∨ 0xDFFF < c.toNat ∧ c.toNat < 0x110000 :=
  c.valid

theorem decodeFrom_utf8EncodeChar (c : Char) (rest : List UInt8) :
    decodeFrom none (String.utf8EncodeChar c ++ rest) = some c :: decodeFrom none rest := by
  have isCodePoint := toNat_isCodePoint c
  have whole {n : Nat} (value : n = c.toNat) : Char.ofNat n = c := by
    rw [value, Char.ofNat_toNat]
  simp only [String.utf8EncodeChar]
  rw [Char.toNat] at isCodePoint whole
  generalize c.val.toNat = n at isCodePoint whole
  -- One case for each length; in the longer forms the first octet bounds the second one.
  split
  next one =>
    simp only [List.cons_append, List.nil_append, decodeFrom, lead_single one, whole rfl]
  split
  next two =>
    have small : n / 64 % 32 = n / 64 := by omega
    simp only [List.cons_append, List.nil_append, small]
    rw [decodeFrom_lead (lead_of_two (by omega) (by omega)),
      decodeFrom_completed n rest (by omega) (by omega), whole (by omega)]
  split
  next three =>
    have small : n / 4096 % 16 = n / 4096 := by omega
    have above : (if n / 4096 = 0 then 0xA0 else 0x80) ≤ n / 64 % 64 + 0x80 := by
      split <;> omega
    have below : n / 64 % 64 + 0x80 ≤ if n / 4096 = 13 then 0x9F else 0xBF := by
      split <;> omega
    simp only [List.cons_append, List.nil_append, small]
    rw [decodeFrom_lead (lead_of_three (by omega)), decodeFrom_continued _ _ above below,
      decodeFrom_completed n rest (by omega) (by omega), whole (by omega)]
  next four =>
    have small : n / 262144 % 8 = n / 262144 := by omega
    have above : (if n / 262144 = 0 then 0x90 else 0x80) ≤ n / 4096 % 64 + 0x80 := by
      split <;> omega
    have below : n / 4096 % 64 + 0x80 ≤ if n / 262144 = 4 then 0x8F else 0xBF := by
      split <;> omega
    simp only [List.cons_append, List.nil_append, small]
    rw [decodeFrom_lead (lead_of_four (by omega)), decodeFrom_continued _ _ above below,
      decodeFrom_continued _ _ (by omega) (by omega),
      decodeFrom_completed n rest (by omega) (by omega), whole (by omega)]

theorem decode_octets (cs : List Char) : decode (octets cs) = cs.map some := by
  induction cs with
  | nil => rfl
  | cons c cs ih =>
    rw [decode] at ih ⊢
    rw [octets_cons, decodeFrom_utf8EncodeChar, ih, List.map_cons]

theorem ofOctets?_octets (cs : List Char) : ofOctets? (octets cs) = some cs := by
  rw [ofOctets?, decode_octets]
  induction cs with
  | nil => rfl
  | cons c cs ih => rw [List.map_cons, List.mapM_cons, ih]; rfl

/-- Two texts have different octets. -/
theorem octets_injective {cs ds : List Char} (same : octets cs = octets ds) : cs = ds :=
  Option.some.inj ((ofOctets?_octets cs).symm.trans (same ▸ ofOctets?_octets ds))

/-- A lenient reading has nothing to replace in the octets of a text. -/
theorem ofOctetsLenient_octets (cs : List Char) : ofOctetsLenient (octets cs) = cs := by
  simp only [ofOctetsLenient, decode_octets, List.map_map, Function.comp_def, Option.getD_some,
    List.map_id']

/-! ## Octets below 0x80 -/

theorem utf8EncodeChar_single {octet : UInt8} (single : octet.toNat < 0x80) :
    String.utf8EncodeChar (Char.ofNat octet.toNat) = [octet] := by
  have isCodePoint : octet.toNat.isValidChar := .inl (by omega)
  have value : (Char.ofNat octet.toNat).val.toNat = octet.toNat := by
    rw [Char.ofNat, dif_pos isCodePoint]
    rfl
  simp only [String.utf8EncodeChar, value]
  rw [if_pos (Nat.le_of_lt_succ single), UInt8.ofNat_toNat]

/-- Characters below 0x80 are octets. -/
theorem octets_singles {bytes : List UInt8} (single : ∀ octet ∈ bytes, octet.toNat < 0x80) :
    octets (bytes.map fun octet => Char.ofNat octet.toNat) = bytes := by
  induction bytes with
  | nil => rfl
  | cons octet rest ih =>
    obtain ⟨first, later⟩ := List.forall_mem_cons.1 single
    rw [List.map_cons, octets_cons, utf8EncodeChar_single first, ih later]
    rfl

theorem toNat_eq_of_mem_utf8EncodeChar {c : Char} {octet : UInt8}
    (member : octet ∈ String.utf8EncodeChar c) (single : octet.toNat < 0x80) :
    octet.toNat = c.toNat := by
  simp only [String.utf8EncodeChar] at member
  rw [Char.toNat]
  generalize c.val.toNat = n at member ⊢
  split at member
  next one =>
    rw [List.mem_singleton.1 member]
    exact toNat_octet (by omega)
  -- Every octet of a longer form has its highest bit set.
  split at member
  next two =>
    simp only [List.mem_cons, List.not_mem_nil, or_false] at member
    obtain rfl | rfl := member <;> rw [toNat_octet (by omega)] at single <;> omega
  split at member
  next three =>
    simp only [List.mem_cons, List.not_mem_nil, or_false] at member
    obtain rfl | rfl | rfl := member <;> rw [toNat_octet (by omega)] at single <;> omega
  next four =>
    simp only [List.mem_cons, List.not_mem_nil, or_false] at member
    obtain rfl | rfl | rfl | rfl := member <;> rw [toNat_octet (by omega)] at single <;> omega

theorem mem_of_mem_octets {cs : List Char} {octet : UInt8} (member : octet ∈ octets cs)
    (single : octet.toNat < 0x80) : Char.ofNat octet.toNat ∈ cs := by
  obtain ⟨c, isMember, inForm⟩ := List.mem_flatMap.1 member
  rwa [toNat_eq_of_mem_utf8EncodeChar inForm single, Char.ofNat_toNat]

end RecipeEngine.Text
