import RecipeEngine.Proofs.Text.Octets
import RecipeEngine.Text.Entries

/-!
# The order of texts

Texts are ordered by the code points of their characters.  The octets of a later character are
later, too, and neither of the two forms begins the other, so that texts are ordered as their octets
are (`Text.octets_lt_iff`).
-/

namespace RecipeEngine.Text

theorem ofNat_lt {n m : Nat} (fits : n < 256) (fits' : m < 256) :
    UInt8.ofNat n < UInt8.ofNat m ↔ n < m := by
  rw [UInt8.lt_iff_toNat_lt, toNat_octet fits, toNat_octet fits']

theorem ofNat_inj {n m : Nat} (fits : n < 256) (fits' : m < 256) :
    UInt8.ofNat n = UInt8.ofNat m ↔ n = m := by
  rw [← UInt8.toNat_inj, toNat_octet fits, toNat_octet fits']

/-- The octets of a later character are later, whatever follows them. -/
theorem utf8EncodeChar_append_lt {c d : Char} (before : c < d) (rest rest' : List UInt8) :
    String.utf8EncodeChar c ++ rest < String.utf8EncodeChar d ++ rest' := by
  have isCodePoint := toNat_isCodePoint c
  have isCodePoint' := toNat_isCodePoint d
  rw [Char.lt_def, UInt32.lt_iff_toNat_lt] at before
  simp only [String.utf8EncodeChar]
  rw [Char.toNat] at isCodePoint isCodePoint'
  generalize c.val.toNat = n at before isCodePoint ⊢
  generalize d.val.toNat = m at before isCodePoint' ⊢
  -- One case for each pair of lengths.  Forms of different lengths differ in the first octet, and
  -- forms of one length are compared digit by digit.
  (repeat' split) <;>
    simp (disch := omega) only [List.cons_append, List.nil_append, List.cons_lt_cons_iff, ofNat_lt,
      ofNat_inj, Nat.mod_eq_of_lt, Nat.add_lt_add_iff_right, Nat.add_right_cancel_iff] <;>
    omega

theorem octets_lt_of_lt {cs ds : List Char} (before : cs < ds) : octets cs < octets ds := by
  induction before with
  | @nil d ds =>
    obtain ⟨octet, rest, form⟩ :=
      List.exists_cons_of_ne_nil (String.utf8EncodeChar_ne_nil (c := d))
    rw [octets_nil, octets_cons, form]
    exact List.nil_lt_cons _ _
  | rel smaller => exact utf8EncodeChar_append_lt smaller _ _
  | cons _ ih => exact List.append_left_lt ih

/-- Texts are ordered as their octets are. -/
theorem octets_lt_iff {s t : String} : octets s.toList < octets t.toList ↔ s < t := by
  constructor
  · intro before
    by_contra notBefore
    by_cases after : t < s
    · exact List.lt_asymm before (octets_lt_of_lt after)
    · rw [Entries.key_eq_of_not_lt notBefore after] at before
      exact List.lt_irrefl _ before
  · exact octets_lt_of_lt

end RecipeEngine.Text
