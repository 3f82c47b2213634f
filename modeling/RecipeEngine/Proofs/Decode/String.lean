import RecipeEngine.Proofs.Decode.Reader

/-!
# Reading strings

The reader of a string accepts exactly the texts that the grammar has for it: what it consumes is a
text of what it gives (`exists_of_readString`), and it gives back what a text stands for
(`readString_of_isStringText`).  The characters of a string are read one by one, each with its
escape (`readEscape_eq_ok_iff`).
-/

namespace RecipeEngine.Decode

open Json

/-! ## Hexadecimal numbers -/

theorem hexValue?_eq_some_iff {c : Char} {n : Nat} :
    hexValue? c = some n ↔ IsHexDigit n c := by
  have decimal : ∀ m < 10, smallHexDigits[m]? = some (Char.ofNat (m + 0x30)) := by decide
  have small : ∀ m < 6, smallHexDigits[m + 10]? = some (Char.ofNat (m + 0x61)) := by decide
  have capital : ∀ m < 6, capitalHexDigits[m + 10]? = some (Char.ofNat (m + 0x41)) := by decide
  have values : ∀ m < 16, hexValue? (smallHexDigits.getD m ' ') = some m ∧
      hexValue? (capitalHexDigits.getD m ' ') = some m := by decide
  constructor
  · intro valued
    have code := Char.ofNat_toNat c
    simp only [hexValue?] at valued
    split at valued
    next range =>
      cases valued
      left
      rw [decimal _ (by omega), Nat.sub_add_cancel range.1, code]
    next =>
      split at valued
      next range =>
        cases valued
        right
        rw [capital _ (by omega), Nat.sub_add_cancel range.1, code]
      next =>
        split at valued
        next range =>
          cases valued
          left
          rw [small _ (by omega), Nat.sub_add_cancel range.1, code]
        next => cases valued
  · rintro (found | found)
    · have bound : n < 16 := (List.getElem?_eq_some_iff.1 found).1
      have valued := (values n bound).1
      rwa [List.getD_eq_getElem?_getD, found] at valued
    · have bound : n < 16 := (List.getElem?_eq_some_iff.1 found).1
      have valued := (values n bound).2
      rwa [List.getD_eq_getElem?_getD, found] at valued

theorem hexNumber?_eq_some_iff {w x y z : Char} {n : Nat} :
    hexNumber? w x y z = some n ↔ IsHexNumber n [w, x, y, z] := by
  constructor
  · intro valued
    simp only [hexNumber?, Option.bind_eq_bind, Option.bind_eq_some_iff, Option.pure_def,
      Option.some.injEq, hexValue?_eq_some_iff] at valued
    obtain ⟨a, first, b, second, c, third, d, fourth, rfl⟩ := valued
    exact .intro first second third fourth
  · intro number
    cases number with
    | intro first second third fourth =>
      simp only [hexNumber?, hexValue?_eq_some_iff.2 first, hexValue?_eq_some_iff.2 second,
        hexValue?_eq_some_iff.2 third, hexValue?_eq_some_iff.2 fourth]
      rfl

theorem readHex_eq_ok_iff {cs rest : List Char} {n : Nat} :
    readHex cs = .ok (n, rest) ↔ ∃ ds, cs = ds ++ rest ∧ IsHexNumber n ds := by
  constructor
  · intro read
    unfold readHex at read
    split at read
    · next w x y z after =>
      split at read
      · next m number =>
        cases read
        exact ⟨[w, x, y, z], rfl, hexNumber?_eq_some_iff.1 number⟩
      · cases failHex_ne_ok read
    · cases failHex_ne_ok read
  · rintro ⟨ds, rfl, number⟩
    cases number with
    | intro first second third fourth =>
      have valued := hexNumber?_eq_some_iff.2 (IsHexNumber.intro first second third fourth)
      simp only [List.cons_append, List.nil_append, readHex, valued]

/-! ## Escapes -/

theorem shortEscape?_eq_some_iff {letter c : Char} :
    shortEscape? letter = some c ↔ (letter, c) ∈ escapes := by
  unfold shortEscape?
  simp only [escapes, List.mem_cons, Prod.mk.injEq, List.not_mem_nil, or_false]
  constructor
  · intro found
    repeat' split at found
    all_goals cases found
    all_goals simp_all
  · rintro (⟨rfl, rfl⟩ | ⟨rfl, rfl⟩ | ⟨rfl, rfl⟩ | ⟨rfl, rfl⟩ | ⟨rfl, rfl⟩ | ⟨rfl, rfl⟩ |
      ⟨rfl, rfl⟩ | ⟨rfl, rfl⟩) <;> decide

theorem readPairMark_eq_ok_iff {wanted : Char} {cs rest : List Char} {u : Unit} :
    readPairMark wanted cs = .ok (u, rest) ↔ cs = wanted :: rest := by
  cases cs with
  | nil => simp [readPairMark]
  | cons c cs => by_cases same : c = wanted <;> simp [readPairMark, same]

theorem isSecondHalf_iff {n : Nat} : isSecondHalf n = true ↔ 0xDC00 ≤ n ∧ n ≤ 0xDFFF := by
  simp [isSecondHalf]

theorem isFirstHalf_iff {n : Nat} : isFirstHalf n = true ↔ 0xD800 ≤ n ∧ n ≤ 0xDBFF := by
  simp [isFirstHalf]

theorem readNumbered_eq_ok_iff {cs rest : List Char} {c : Char} :
    readNumbered cs = .ok (c, rest) ↔
      ∃ ds, cs = ds ++ rest ∧ IsCharacterText c ('\\' :: 'u' :: ds) := by
  constructor
  · intro read
    simp only [readNumbered, bind_eq_ok_iff, Prod.exists, readHex_eq_ok_iff] at read
    obtain ⟨n, _, ⟨ds, rfl, number⟩, read⟩ := read
    split at read
    next => cases failAt_ne_ok read
    next notSecond =>
      rw [isSecondHalf_iff] at notSecond
      split at read
      next isFirst =>
        rw [isFirstHalf_iff] at isFirst
        simp only [bind_eq_ok_iff, Prod.exists, readPairMark_eq_ok_iff, readHex_eq_ok_iff] at read
        obtain ⟨_, _, rfl, _, _, rfl, m, _, ⟨es, rfl, second⟩, read⟩ := read
        split at read
        next isSecond =>
          rw [isSecondHalf_iff] at isSecond
          simp only [Except.ok.injEq, Prod.mk.injEq] at read
          obtain ⟨rfl, rfl⟩ := read
          refine ⟨ds ++ '\\' :: 'u' :: es, by simp, ?_⟩
          exact .paired number isFirst.1 isFirst.2 second isSecond.1 isSecond.2
        next => cases failAt_ne_ok read
      next notFirst =>
        rw [isFirstHalf_iff] at notFirst
        simp only [Except.ok.injEq, Prod.mk.injEq] at read
        obtain ⟨rfl, rfl⟩ := read
        exact ⟨ds, rfl, .numbered number (by omega)⟩
  · rintro ⟨ds, rfl, character⟩
    cases character with
    | escaped letter => simp [escapes] at letter
    | @numbered n ds number whole =>
      have notSecond : isSecondHalf n = false := by simp [isSecondHalf]; omega
      have notFirst : isFirstHalf n = false := by simp [isFirstHalf]; omega
      have read : readHex (ds ++ rest) = .ok (n, rest) := readHex_eq_ok_iff.2 ⟨ds, rfl, number⟩
      simp [readNumbered, read, notSecond, notFirst]
    | @paired n m ds es number low high second low' high' =>
      have notSecond : isSecondHalf n = false := by simp [isSecondHalf]; omega
      have isFirst := isFirstHalf_iff.2 ⟨low, high⟩
      have isSecond := isSecondHalf_iff.2 ⟨low', high'⟩
      have read : readHex (ds ++ '\\' :: 'u' :: (es ++ rest)) = .ok (n, _) :=
        readHex_eq_ok_iff.2 ⟨ds, rfl, number⟩
      have read' : readHex (es ++ rest) = .ok (m, rest) := readHex_eq_ok_iff.2 ⟨es, rfl, second⟩
      simp [readNumbered, read, read', notSecond, isFirst, isSecond, readPairMark, ofHalves]

theorem readEscape_eq_ok_iff {cs rest : List Char} {c : Char} :
    readEscape cs = .ok (c, rest) ↔
      ∃ t, cs = t ++ rest ∧ IsCharacterText c ('\\' :: t) := by
  constructor
  · intro read
    unfold readEscape at read
    split at read
    next => cases failAt_ne_ok read
    next letter cs =>
      split at read
      next short =>
        cases read
        exact ⟨[letter], rfl, .escaped (shortEscape?_eq_some_iff.1 short)⟩
      next =>
        split at read
        next isNumber =>
          obtain ⟨ds, rfl, character⟩ := readNumbered_eq_ok_iff.1 read
          exact ⟨letter :: ds, rfl, by rwa [isNumber]⟩
        next => cases failPeeking_ne_ok read
  · rintro ⟨t, rfl, character⟩
    have numbered : shortEscape? 'u' = none := by decide
    cases character with
    | plain notQuote notBackslash => exact absurd rfl notBackslash
    | @escaped letter _ listed =>
      simp [readEscape, shortEscape?_eq_some_iff.2 listed]
    | @numbered n ds number whole =>
      have read : readNumbered (ds ++ rest) = .ok (_, rest) :=
        readNumbered_eq_ok_iff.2 ⟨ds, rfl, .numbered number whole⟩
      simpa [readEscape, numbered] using read
    | @paired n m ds es number low high second low' high' =>
      have read : readNumbered (_ ++ rest) = .ok (_, rest) :=
        readNumbered_eq_ok_iff.2 ⟨_, rfl, .paired number low high second low' high'⟩
      simpa [readEscape, numbered] using read

/-! ## Whole strings -/

/-- What `readCharacters` consumes is the inside of a string and its closing quote. -/
theorem exists_of_readCharacters {budget : Nat} {cs rest s : List Char}
    (read : readCharacters budget cs = .ok (s, rest)) :
    ∃ body, cs = body ++ '"' :: rest ∧ AreCharacterTexts s body := by
  induction budget generalizing cs s with
  | zero => cases failAt_ne_ok read
  | succ budget ih =>
    cases cs with
    | nil => cases failAt_ne_ok read
    | cons c cs =>
      simp only [readCharacters] at read
      split at read
      next closing =>
        cases read
        exact ⟨[], by rw [closing]; rfl, .nil⟩
      next notQuote =>
        split at read
        next backslash =>
          simp only [bind_eq_ok_iff, Prod.exists, readEscape_eq_ok_iff] at read
          obtain ⟨d, _, ⟨t, rfl, character⟩, ds, _, later, read⟩ := read
          cases read
          obtain ⟨body, rfl, characters⟩ := ih later
          refine ⟨'\\' :: t ++ body, ?_, .cons character characters⟩
          simp [backslash]
        next notBackslash =>
          split at read
          next => cases failPeeking_ne_ok read
          next notControl =>
            simp only [bind_eq_ok_iff, Prod.exists] at read
            obtain ⟨ds, _, later, read⟩ := read
            cases read
            obtain ⟨body, rfl, characters⟩ := ih later
            have plain := IsCharacterText.plain notQuote notBackslash (Nat.not_lt.1 notControl)
            exact ⟨[c] ++ body, rfl, .cons plain characters⟩

theorem readCharacters_append {c : Char} {t : List Char} (character : IsCharacterText c t)
    (budget : Nat) (cs : List Char) :
    readCharacters (budget + 1) (t ++ cs) =
      (readCharacters budget cs).map fun (ds, rest) => (c :: ds, rest) := by
  have escaped (t : List Char) (character : IsCharacterText c ('\\' :: t)) :
      readCharacters (budget + 1) ('\\' :: (t ++ cs)) =
        (readCharacters budget cs).map fun (ds, rest) => (c :: ds, rest) := by
    have read : readEscape (t ++ cs) = .ok (c, cs) := readEscape_eq_ok_iff.2 ⟨t, rfl, character⟩
    simp only [readCharacters, read, ok_bind, reduceIte, Char.reduceEq]
    cases readCharacters budget cs <;> rfl
  cases character with
  | plain notQuote notBackslash notControl =>
    simp only [List.cons_append, List.nil_append, readCharacters, notQuote, notBackslash,
      Nat.not_lt.2 notControl, reduceIte]
    cases readCharacters budget cs <;> rfl
  | escaped listed => exact escaped _ (.escaped listed)
  | numbered number whole => exact escaped _ (.numbered number whole)
  | paired number low high second low' high' =>
    exact escaped _ (.paired number low high second low' high')

theorem readCharacters_of_areCharacterTexts {budget : Nat} {s body : List Char}
    (characters : AreCharacterTexts s body) (enough : body.length < budget) (rest : List Char) :
    readCharacters budget (body ++ '"' :: rest) = .ok (s, rest) := by
  induction characters generalizing budget with
  | nil =>
    cases budget with
    | zero => cases enough
    | succ budget => simp [readCharacters]
  | @cons c cs first later character characters ih =>
    cases budget with
    | zero => cases enough
    | succ budget =>
      have consumed : 0 < first.length := by cases character <;> simp
      rw [List.length_append] at enough
      rw [List.append_assoc, readCharacters_append character, ih (by omega), map_ok]

/-- What is consumed with the opening quote is a text of the string. -/
theorem exists_of_readString {budget : Nat} {cs rest : List Char} {s : String}
    (read : readString budget cs = .ok (s, rest)) :
    ∃ t, '"' :: cs = t ++ rest ∧ IsStringText s t := by
  simp only [readString, bind_eq_ok_iff, Prod.exists] at read
  obtain ⟨characters, _, read, same⟩ := read
  cases same
  obtain ⟨body, rfl, texts⟩ := exists_of_readCharacters read
  refine ⟨'"' :: (body ++ ['"']), by simp, .intro ?_⟩
  rwa [String.toList_ofList]

theorem readString_of_isStringText {budget : Nat} {s : String} {t : List Char}
    (text : IsStringText s t) (enough : t.length ≤ budget) (rest : List Char) :
    ∃ body, t = '"' :: body ∧ readString budget (body ++ rest) = .ok (s, rest) := by
  cases text with
  | @intro body characters =>
    refine ⟨body ++ ['"'], rfl, ?_⟩
    simp only [List.length_cons, List.length_append, List.length_nil] at enough
    have within : body.length < budget := by omega
    have read := readCharacters_of_areCharacterTexts characters within rest
    simp only [readString, List.append_assoc, List.cons_append, List.nil_append, read, ok_bind,
      String.ofList_toList]

end RecipeEngine.Decode
