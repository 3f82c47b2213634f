import RecipeEngine.Json.Render
import RecipeEngine.Proofs.Json.Reread

/-!
# What is written is a text of a value

The compact text of a value is a text of that value as it is read back (`Json.isText_render`), and
it never goes on to another line (`Json.newline_not_mem_render`): a newline can only stand in a
string, where it is escaped.
-/

namespace RecipeEngine

open Json Number

/-! ## Strings -/

theorem isHexDigit_hexDigit : ∀ n < 16, IsHexDigit n (hexDigit n) := by
  have listed : ∀ n < 16, smallHexDigits[n]? = some (hexDigit n) := by decide
  exact fun n small => .inl (listed n small)

theorem escaped_of_mem_escapes : ∀ p ∈ escapes, p.1 ≠ '/' → escaped p.2 = ['\\', p.1] := by decide

/-- A character is escaped by a letter, by its number, or not at all. -/
theorem escaped_cases (c : Char) :
    (∃ letter, (letter, c) ∈ escapes ∧ escaped c = ['\\', letter]) ∨
      (c.toNat < 0x20 ∧ escaped c =
        ['\\', 'u', '0', '0', hexDigit (c.toNat / 16), hexDigit (c.toNat % 16)]) ∨
      (c ≠ '"' ∧ c ≠ '\\' ∧ 0x20 ≤ c.toNat ∧ escaped c = [c]) := by
  by_cases special : ∃ p ∈ escapes, p.1 ≠ '/' ∧ p.2 = c
  · obtain ⟨p, listed, notSlash, rfl⟩ := special
    exact .inl ⟨p.1, listed, escaped_of_mem_escapes p listed notSlash⟩
  · have other : ∀ d ∈ ['"', '\\', '\x08', '\x0c', '\n', '\r', '\t'], c ≠ d := by
      have listed : ∀ d ∈ ['"', '\\', '\x08', '\x0c', '\n', '\r', '\t'],
          ∃ p ∈ escapes, p.1 ≠ '/' ∧ p.2 = d := by simp [escapes]
      rintro d member rfl
      exact special (listed c member)
    simp only [List.forall_mem_cons] at other
    obtain ⟨notQuote, notBackslash, notBell, notFeed, notNewline, notReturn, notTab, -⟩ := other
    refine .inr ?_
    simp only [escaped, notQuote, notBackslash, notBell, notFeed, notNewline, notReturn, notTab,
      reduceIte]
    by_cases control : c.toNat < 0x20
    · exact .inl ⟨control, if_pos control⟩
    · exact .inr ⟨notQuote, notBackslash, Nat.not_lt.1 control, if_neg control⟩

theorem isCharacterText_escaped (c : Char) : IsCharacterText c (escaped c) := by
  obtain ⟨letter, listed, same⟩ | ⟨control, same⟩ | ⟨notQuote, notBackslash, visible, same⟩ :=
    escaped_cases c
  · exact same ▸ .escaped listed
  · have number : IsHexNumber (((0 * 16 + 0) * 16 + c.toNat / 16) * 16 + c.toNat % 16)
        ['0', '0', hexDigit (c.toNat / 16), hexDigit (c.toNat % 16)] :=
      .intro (isHexDigit_hexDigit 0 (by decide)) (isHexDigit_hexDigit 0 (by decide))
        (isHexDigit_hexDigit _ (by omega)) (isHexDigit_hexDigit _ (by omega))
    have value : ((0 * 16 + 0) * 16 + c.toNat / 16) * 16 + c.toNat % 16 = c.toNat := by omega
    rw [value] at number
    have text := IsCharacterText.numbered number (.inl (by omega))
    rw [same]
    rwa [Char.ofNat_toNat] at text
  · exact same ▸ .plain notQuote notBackslash visible

theorem isStringText_renderString (s : String) : IsStringText s (renderString s) := by
  refine .intro ?_
  induction s.toList with
  | nil => exact .nil
  | cons c cs ih => exact .cons (isCharacterText_escaped c) ih

/-! ## Numbers -/

theorem exists_numeral_of_number (n : JsonNumber) :
    ∃ numeral : Numeral, numeral.IsText n.render ∧ numeral.number? = some n.reread := by
  cases n with
  | integer i => exact exists_numeral_of_integer i
  | floating x => exact exists_numeral x

/-! ## Values -/

namespace Json

theorem exists_renderItems {items : List Json} (texts : ∀ j ∈ items, IsText j.reread j.render) :
    ∃ body, renderItems items = body ++ [']'] ∧ Row IsText false (rereadItems items) body := by
  induction items with
  | nil => exact ⟨[], rfl, .nil (List.forall_mem_nil _)⟩
  | cons j rest ih =>
    obtain ⟨first, later⟩ := List.forall_mem_cons.1 texts
    obtain ⟨body, split, row⟩ := ih later
    refine ⟨[','] ++ (j.render ++ body), by rw [renderItems, split]; simp, .cons ?_ first row⟩
    exact .later (List.forall_mem_nil _) (List.forall_mem_nil _)

theorem exists_renderMembers {members : List (String × Json)}
    (texts : ∀ m ∈ members, IsText m.2.reread m.2.render) :
    ∃ body, renderMembers members = body ++ ['\x7d'] ∧
      Row (IsMember IsText) false (rereadMembers members) body := by
  induction members with
  | nil => exact ⟨[], rfl, .nil (List.forall_mem_nil _)⟩
  | cons m rest ih =>
    obtain ⟨first, later⟩ := List.forall_mem_cons.1 texts
    obtain ⟨body, split, row⟩ := ih later
    have member : IsMember IsText (m.1, m.2.reread)
        (renderString m.1 ++ ([] ++ ':' :: ([] ++ m.2.render))) :=
      .intro (isStringText_renderString m.1) (List.forall_mem_nil _) (List.forall_mem_nil _) first
    refine ⟨[','] ++ ((renderString m.1 ++ ([] ++ ':' :: ([] ++ m.2.render))) ++ body),
      by rw [renderMembers, split]; simp, .cons ?_ member row⟩
    exact .later (List.forall_mem_nil _) (List.forall_mem_nil _)

/-- What is written of a value is a text of what it is read back as. -/
theorem isText_render (j : Json) : IsText j.reread j.render := by
  induction j using Json.inductionOn with
  | null => exact .null
  | boolean b =>
    cases b with
    | true => exact .yes
    | false => exact .no
  | number n =>
    obtain ⟨numeral, text, value⟩ := exists_numeral_of_number n
    exact .number text value
  | string s => exact .string (isStringText_renderString s)
  | array items ih =>
    cases items with
    | nil => exact .array (.nil (List.forall_mem_nil _))
    | cons j rest =>
      obtain ⟨first, later⟩ := List.forall_mem_cons.1 ih
      obtain ⟨body, split, row⟩ := exists_renderItems later
      have text := IsText.array (.cons (.first (List.forall_mem_nil _)) first row)
      simpa [reread, rereadItems, render, split] using text
  | object members ih =>
    cases members with
    | nil => exact .object (.nil (List.forall_mem_nil _))
    | cons m rest =>
      obtain ⟨first, later⟩ := List.forall_mem_cons.1 ih
      obtain ⟨body, split, row⟩ := exists_renderMembers later
      have member := IsMember.intro (isStringText_renderString m.1) (List.forall_mem_nil _)
        (List.forall_mem_nil _) first
      have text := IsText.object (.cons (.first (List.forall_mem_nil _)) member row)
      simpa [reread, rereadMembers, render, split] using text

/-! ## Lines -/

theorem newline_not_mem_escaped (c : Char) : '\n' ∉ escaped c := by
  obtain ⟨letter, listed, same⟩ | ⟨control, same⟩ | ⟨-, -, visible, same⟩ := escaped_cases c
  · have noNewline : ∀ p ∈ escapes, '\n' ∉ ['\\', p.1] := by decide
    rw [same]
    exact noNewline _ listed
  · have noDigit : ∀ n < 16, hexDigit n ≠ '\n' := by decide
    have high := noDigit (c.toNat / 16) (by omega)
    have low := noDigit (c.toNat % 16) (by omega)
    rw [same]
    simp [high.symm, low.symm]
  · rw [same, List.mem_singleton]
    rintro rfl
    exact absurd visible (by decide)

theorem newline_not_mem_renderString (s : String) : '\n' ∉ renderString s := by
  have inside : '\n' ∉ s.toList.flatMap escaped := by
    rw [List.mem_flatMap]
    rintro ⟨c, -, member⟩
    exact newline_not_mem_escaped c member
  simp [renderString, inside]

theorem newline_not_mem_digits {ds : List Char} (digits : ∀ c ∈ ds, c.isDigit = true) :
    '\n' ∉ ds :=
  fun member => absurd (digits _ member) (by decide)

theorem newline_not_mem_numeral {n : Numeral} {t : List Char} (text : n.IsText t) : '\n' ∉ t := by
  cases text with
  | @intro fraction exponent whole fractionText exponentText =>
    have inFraction : '\n' ∉ fraction := by
      generalize n.fraction = part at fractionText
      cases fractionText with
      | absent => exact List.not_mem_nil
      | present digits => simp [newline_not_mem_digits digits.2]
    have inExponent : '\n' ∉ exponent := by
      generalize n.exponent = part at exponentText
      cases exponentText with
      | absent => exact List.not_mem_nil
      | present letter sign digits =>
        have inDigits := newline_not_mem_digits digits.2
        obtain rfl | rfl := letter <;> cases sign <;> simp [inDigits]
    have inWhole := newline_not_mem_digits whole.1.2
    cases n.negative <;> simp [inFraction, inExponent, inWhole]

theorem newline_not_mem_renderItems {items : List Json} (none : ∀ j ∈ items, '\n' ∉ j.render) :
    '\n' ∉ renderItems items := by
  induction items with
  | nil => decide
  | cons j rest ih =>
    obtain ⟨first, later⟩ := List.forall_mem_cons.1 none
    simp [renderItems, first, ih later]

theorem newline_not_mem_renderMembers {members : List (String × Json)}
    (none : ∀ m ∈ members, '\n' ∉ m.2.render) : '\n' ∉ renderMembers members := by
  induction members with
  | nil => decide
  | cons m rest ih =>
    obtain ⟨first, later⟩ := List.forall_mem_cons.1 none
    simp [renderMembers, newline_not_mem_renderString, first, ih later]

/-- What is written of a value stands on one line. -/
theorem newline_not_mem_render (j : Json) : '\n' ∉ j.render := by
  induction j using Json.inductionOn with
  | null => decide
  | boolean b => cases b <;> decide
  | number n =>
    obtain ⟨numeral, text, -⟩ := exists_numeral_of_number n
    exact newline_not_mem_numeral text
  | string s => exact newline_not_mem_renderString s
  | array items ih =>
    cases items with
    | nil => decide
    | cons j rest =>
      obtain ⟨first, later⟩ := List.forall_mem_cons.1 ih
      simp [render, first, newline_not_mem_renderItems later]
  | object members ih =>
    cases members with
    | nil => decide
    | cons m rest =>
      obtain ⟨first, later⟩ := List.forall_mem_cons.1 ih
      simp [render, newline_not_mem_renderString, first, newline_not_mem_renderMembers later]

end Json

end RecipeEngine
