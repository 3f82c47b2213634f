import RecipeEngine.Proofs.Decode.Container
import RecipeEngine.Proofs.Json.Basic

/-!
# Reading values and whole texts

The reader of values accepts exactly the texts of the grammar.  What it consumes is a text of the
value that it gives, which is nested no deeper than allowed (`readsOnly_readValue`), and a value
that is nested no deeper is given back from each of its texts (`readsBack_readValue`).  So a whole
text is accepted for a value if and only if the grammar says so (`valueOfText_eq_ok_iff`), and no
text stands for two values (`eq_of_isText`).
-/

namespace RecipeEngine.Decode

open Json

/-! ## Scalars -/

theorem readKeyword_eq_ok_iff {word cs rest : List Char} {u : Unit} :
    readKeyword word cs = .ok (u, rest) ↔ cs = word ++ rest := by
  induction word generalizing cs with
  | nil => simp [readKeyword, eq_comm]
  | cons w ws ih =>
    cases cs with
    | nil => simp [readKeyword]
    | cons c cs =>
      by_cases same : c = w
      · simp [readKeyword, same, ih]
      · simp [readKeyword, same]

/-- What is read as a scalar is a text of it, and it is no container. -/
theorem exists_of_readScalar {budget : Nat} {cs rest : List Char} {j : Json}
    (read : readScalar budget cs = .ok (j, rest)) :
    ∃ t, IsText j t ∧ j.nesting = 0 ∧ cs = t ++ rest := by
  cases cs with
  | nil => cases failPeeking_ne_ok read
  | cons c cs =>
    simp only [readScalar] at read
    split at read
    next isN =>
      simp only [map_eq_ok_iff, Prod.exists, readKeyword_eq_ok_iff] at read
      obtain ⟨_, _, rfl, same⟩ := read
      cases same
      exact ⟨_, .null, rfl, by rw [isN]; rfl⟩
    next =>
    split at read
    next isT =>
      simp only [map_eq_ok_iff, Prod.exists, readKeyword_eq_ok_iff] at read
      obtain ⟨_, _, rfl, same⟩ := read
      cases same
      exact ⟨_, .yes, rfl, by rw [isT]; rfl⟩
    next =>
    split at read
    next isF =>
      simp only [map_eq_ok_iff, Prod.exists, readKeyword_eq_ok_iff] at read
      obtain ⟨_, _, rfl, same⟩ := read
      cases same
      exact ⟨_, .no, rfl, by rw [isF]; rfl⟩
    next =>
    split at read
    next quote =>
      simp only [map_eq_ok_iff, Prod.exists] at read
      obtain ⟨s, _, readString, same⟩ := read
      cases same
      obtain ⟨t, split, isString⟩ := exists_of_readString readString
      exact ⟨t, .string isString, rfl, by rw [quote, split]⟩
    next =>
    split at read
    next =>
      simp only [map_eq_ok_iff, Prod.exists] at read
      obtain ⟨n, _, readNumber, same⟩ := read
      cases same
      obtain ⟨numeral, t, split, isNumeral, value⟩ := exists_of_readNumber readNumber
      exact ⟨t, .number isNumeral value, rfl, split⟩
    next => cases failPeeking_ne_ok read

theorem exists_numeral_head {n : Numeral} {t : List Char} (text : n.IsText t) :
    ∃ c cs, t = c :: cs ∧ (c = '-' ∨ c.isDigit = true) := by
  cases text with
  | @intro fraction exponent whole =>
    obtain ⟨⟨nonempty, digits⟩, -⟩ := whole
    cases negative : n.negative with
    | true => exact ⟨'-', _, rfl, .inl rfl⟩
    | false =>
      cases split : n.whole with
      | nil => exact absurd split nonempty
      | cons c ds =>
        exact ⟨c, _, rfl, .inr (digits c (by rw [split]; exact List.mem_cons_self ..))⟩

theorem ne_of_numeral_head {c : Char} (first : c = '-' ∨ c.isDigit = true) (others : List Char)
    (apart : ∀ d ∈ others, d ≠ '-' ∧ d.isDigit = false) : ∀ d ∈ others, c ≠ d := by
  rintro d listed rfl
  obtain ⟨notSign, notDigit⟩ := apart c listed
  obtain sign | digit := first
  · exact notSign sign
  · rw [digit] at notDigit
    cases notDigit

theorem starts_isText : Starts IsText := by
  intro j t text
  cases text with
  | null => exact ⟨_, _, rfl, by decide⟩
  | yes => exact ⟨_, _, rfl, by decide⟩
  | no => exact ⟨_, _, rfl, by decide⟩
  | string isString =>
    cases isString with
    | intro => exact ⟨_, _, rfl, by decide⟩
  | array => exact ⟨_, _, rfl, by decide⟩
  | object => exact ⟨_, _, rfl, by decide⟩
  | number isNumeral =>
    obtain ⟨c, cs, rfl, first⟩ := exists_numeral_head isNumeral
    have other := ne_of_numeral_head first [' ', '\n', '\t', '\r', ']', '\x7d'] (by simp)
    refine ⟨c, cs, rfl, ?_, other _ (by decide), other _ (by decide)⟩
    rw [← Bool.not_eq_true, isJsonBlank_iff]
    intro blank
    exact other c (List.mem_append_left [']', '\x7d'] blank) rfl

theorem readScalar_of_isText {budget : Nat} {j : Json} {t rest : List Char} (text : IsText j t)
    (scalar : j.nesting = 0) (small : t.length ≤ budget) (ends : EndsScalar rest) :
    readScalar budget (t ++ rest) = .ok (j, rest) := by
  cases text with
  | null => rfl
  | yes => rfl
  | no => rfl
  | array => cases scalar
  | object => cases scalar
  | string isString =>
    obtain ⟨body, rfl, read⟩ := readString_of_isStringText isString small rest
    simp only [List.cons_append, readScalar, read, map_ok, Char.reduceEq, reduceIte]
  | number isNumeral value =>
    have read := readNumber_of_isText isNumeral value ends
    obtain ⟨c, cs, rfl, first⟩ := exists_numeral_head isNumeral
    have other := ne_of_numeral_head first ['n', 't', 'f', '"'] (by simp)
    simp only [List.forall_mem_cons] at other
    obtain ⟨noN, noT, noF, noQuote, -⟩ := other
    rw [List.cons_append] at read
    simp only [List.cons_append, readScalar, noN, noT, noF, noQuote, first, read, map_ok,
      reduceIte]

/-! ## Kinds -/

section

variable {α : Type} {budget : Nat} {array object : Reader α} {scalar : Json → Except ShapeError α}
  {cs rest : List Char} {a : α}

/-- A value is read by its first character that is not blank. -/
theorem exists_of_readByKind (read : readByKind budget array object scalar cs = .ok (a, rest)) :
    ∃ blanks tail, AreBlank blanks ∧ cs = blanks ++ tail ∧
      ((∃ t, tail = '[' :: t ∧ array tail = .ok (a, rest)) ∨
        (∃ t, tail = '\x7b' :: t ∧ object tail = .ok (a, rest)) ∨
        ∃ j, readScalar budget tail = .ok (j, rest) ∧ scalar j = .ok a) := by
  unfold readByKind at read
  split at read
  next => cases failPeeking_ne_ok read
  next c tail skipped =>
    obtain ⟨blanks, blank, split, -⟩ := exists_of_skipBlanks skipped
    refine ⟨blanks, c :: tail, blank, split, ?_⟩
    split at read
    next bracket => exact .inl ⟨tail, by rw [bracket], read⟩
    next =>
    split at read
    next brace => exact .inr (.inl ⟨tail, by rw [brace], read⟩)
    next =>
      simp only [bind_eq_ok_iff, Prod.exists] at read
      obtain ⟨j, after, readScalar, read⟩ := read
      split at read
      next a' accepted =>
        cases read
        exact .inr (.inr ⟨j, readScalar, accepted⟩)
      next => cases failShape_ne_ok read

variable {blanks : List Char}

theorem readByKind_array (blank : AreBlank blanks) :
    readByKind budget array object scalar (blanks ++ '[' :: cs) = array ('[' :: cs) := by
  have marked : isJsonBlank '[' = false := by decide
  simp only [readByKind, skipBlanks_append blank, skipBlanks_cons marked, reduceIte]

theorem readByKind_object (blank : AreBlank blanks) :
    readByKind budget array object scalar (blanks ++ '\x7b' :: cs) = object ('\x7b' :: cs) := by
  have marked : isJsonBlank '\x7b' = false := by decide
  simp only [readByKind, skipBlanks_append blank, skipBlanks_cons marked, reduceIte,
    Char.reduceEq]

theorem readByKind_of_readScalar {j : Json} (blank : AreBlank blanks)
    (read : readScalar budget cs = .ok (j, rest)) (accepted : scalar j = .ok a) :
    readByKind budget array object scalar (blanks ++ cs) = .ok (a, rest) := by
  obtain ⟨t, text, -, rfl⟩ := exists_of_readScalar read
  obtain ⟨c, t, rfl, marked, -⟩ := starts_isText text
  have notBracket : c ≠ '[' := by rintro rfl; cases read
  have notBrace : c ≠ '\x7b' := by rintro rfl; cases read
  rw [List.cons_append] at read
  simp only [readByKind, skipBlanks_append blank, List.cons_append, skipBlanks_cons marked,
    notBracket, notBrace, reduceIte, read, ok_bind, accepted]

end

/-- How a value comes to be read: as an array, as an object or as a scalar. -/
inductive ValueRead (budget : Nat) : Nat → List Char → Json → List Char → Prop
  | array {levels : Nat} {blanks cs after rest : List Char} {items : List Json} :
      AreBlank blanks →
      readItems (readValue budget levels) budget true cs = .ok (items, after) →
      closeArray after = .ok ((), rest) →
      ValueRead budget (levels + 1) (blanks ++ '[' :: cs) (.array items) rest
  | object {levels : Nat} {blanks cs after rest : List Char} {members : List (String × Json)} :
      AreBlank blanks →
      foldMembers (gatherMember (readValue budget levels)) budget budget true [] cs =
        .ok (members.reverse, after) →
      closeObject after = .ok ((), rest) →
      ValueRead budget (levels + 1) (blanks ++ '\x7b' :: cs) (.object members) rest
  | scalar {levels : Nat} {blanks cs rest : List Char} {j : Json} :
      AreBlank blanks → readScalar budget cs = .ok (j, rest) →
      ValueRead budget levels (blanks ++ cs) j rest

theorem readValue_eq_ok_iff {budget levels : Nat} {cs rest : List Char} {j : Json} :
    readValue budget levels cs = .ok (j, rest) ↔ ValueRead budget levels cs j rest := by
  constructor
  · intro read
    cases levels with
    | zero =>
      obtain ⟨blanks, tail, blank, rfl, ⟨t, -, deep⟩ | ⟨t, -, deep⟩ | ⟨j', scalar, same⟩⟩ :=
        exists_of_readByKind read
      · cases failPeeking_ne_ok deep
      · cases failPeeking_ne_ok deep
      · cases same
        exact .scalar blank scalar
    | succ levels =>
      rw [readValue] at read
      obtain ⟨blanks, tail, blank, rfl, ⟨t, rfl, array⟩ | ⟨t, rfl, object⟩ | ⟨j', scalar, same⟩⟩ :=
        exists_of_readByKind read
      · obtain ⟨_, read, close⟩ := readArray_eq_ok_iff.1 array
        simp only [bind_eq_ok_iff, Prod.exists] at read
        obtain ⟨items, _, read, same⟩ := read
        cases same
        exact .array blank read close
      · obtain ⟨_, read, close⟩ := readObject_eq_ok_iff.1 object
        simp only [bind_eq_ok_iff, Prod.exists] at read
        obtain ⟨gathered, _, read, same⟩ := read
        cases same
        rw [← gathered.reverse_reverse] at read
        exact .object blank read close
      · cases same
        exact .scalar blank scalar
  · intro read
    cases read with
    | array blank read close =>
      rw [readValue, readByKind_array blank, readArray_eq_ok_iff]
      refine ⟨_, ?_, close⟩
      simp only [List.drop_one, List.tail_cons, read, ok_bind]
    | object blank read close =>
      rw [readValue, readByKind_object blank, readObject_eq_ok_iff]
      refine ⟨_, ?_, close⟩
      simp only [List.drop_one, List.tail_cons, read, ok_bind, List.reverse_reverse]
    | scalar blank read => cases levels <;> exact readByKind_of_readScalar blank read rfl

/-! ## Values -/

/-- A row of texts with a property is a row of texts, and all its parts have the property. -/
theorem row_and {α : Type} {text : α → List Char → Prop} {p : α → Prop} {first : Bool}
    {as : List α} {t : List Char} (row : Row (fun a t => text a t ∧ p a) first as t) :
    Row text first as t ∧ ∀ a ∈ as, p a := by
  induction row with
  | nil blank => exact ⟨.nil blank, List.forall_mem_nil _⟩
  | cons gap inner later ih =>
    exact ⟨.cons gap inner.1 ih.1, List.forall_mem_cons.2 ⟨inner.2, ih.2⟩⟩

theorem row_mono {α : Type} {text text' : α → List Char → Prop} {first : Bool} {as : List α}
    {t : List Char} (row : Row text first as t) (weaker : ∀ a t, text a t → text' a t) :
    Row text' first as t := by
  induction row with
  | nil blank => exact .nil blank
  | cons gap inner later ih => exact .cons gap (weaker _ _ inner) ih

/-- What is read as a value is a text of it, and it is nested no deeper than allowed. -/
theorem readsOnly_readValue (budget levels : Nat) :
    ReadsOnly (readValue budget levels) fun j t => IsText j t ∧ j.nesting ≤ levels := by
  induction levels with
  | zero =>
    intro cs j rest read
    cases readValue_eq_ok_iff.1 read with
    | @scalar _ blanks _ _ _ blank scalar =>
      obtain ⟨t, text, flat, rfl⟩ := exists_of_readScalar scalar
      exact ⟨blanks, t, blank, ⟨text, Nat.le_of_eq flat⟩, rfl⟩
  | succ levels ih =>
    intro cs j rest read
    cases readValue_eq_ok_iff.1 read with
    | @array _ blanks _ _ _ items blank inside close =>
      obtain ⟨-, body, after, row, rfl, rfl⟩ := exists_of_readItems ih inside
      rw [closeArray_closing] at close
      cases close
      obtain ⟨row, flat⟩ := row_and row
      exact ⟨blanks, '[' :: (body ++ [']']), blank,
        ⟨.array row, nesting_array_le_succ.2 flat⟩, by simp⟩
    | @object _ blanks _ _ _ members blank inside close =>
      obtain ⟨members', body, after, reversed, row, rfl, rfl⟩ := exists_of_foldMembers ih inside
      rw [List.append_nil, List.reverse_inj] at reversed
      rw [closeObject_closing] at close
      cases close
      subst reversed
      have row : Row (fun m t => IsMember IsText m t ∧ m.2.nesting ≤ levels) true members body := by
        refine row_mono row fun m t member => ?_
        cases member with
        | intro name blank blank' inner => exact ⟨.intro name blank blank' inner.1, inner.2⟩
      obtain ⟨row, flat⟩ := row_and row
      exact ⟨blanks, '\x7b' :: (body ++ ['\x7d']), blank,
        ⟨.object row, nesting_object_le_succ.2 flat⟩, by simp⟩
    | @scalar _ blanks _ _ _ blank scalar =>
      obtain ⟨t, text, flat, rfl⟩ := exists_of_readScalar scalar
      exact ⟨blanks, t, blank, ⟨text, by omega⟩, rfl⟩

theorem readsBack_of_scalar {budget levels : Nat} {j : Json} (scalar : j.nesting = 0) :
    ReadsBack (readValue budget levels) IsText budget j := by
  intro blanks inner rest blank text small ends
  exact readValue_eq_ok_iff.2 (.scalar blank (readScalar_of_isText text scalar small ends))

/-- A value that is not nested too deep is given back from each of its texts. -/
theorem readsBack_readValue {budget levels : Nat} {j : Json} (flat : j.nesting ≤ levels) :
    ReadsBack (readValue budget levels) IsText budget j := by
  -- The budget stays as it is on the way into a container: only the levels go down with the value,
  -- and a row has fewer parts than characters.
  induction j using Json.inductionOn generalizing levels with
  | null => exact readsBack_of_scalar rfl
  | boolean b => exact readsBack_of_scalar rfl
  | number n => exact readsBack_of_scalar rfl
  | string s => exact readsBack_of_scalar rfl
  | array items ih =>
    intro blanks inner rest blank text small ends
    obtain ⟨levels, rfl⟩ := Nat.exists_eq_succ_of_ne_zero (Nat.ne_zero_of_lt flat)
    cases text with
    | @array items body row =>
      have back : ∀ j ∈ items, ReadsBack (readValue budget levels) IsText budget j :=
        fun j member => ih j member (nesting_array_le_succ.1 flat j member)
      simp only [List.length_cons, List.length_append] at small
      have few := length_le_of_row starts_isText row
      have read : readItems (readValue budget levels) budget true (body ++ ']' :: rest) =
          .ok (items, ']' :: rest) :=
        readItems_of_row starts_isText row (by omega) back (by omega)
      rw [List.cons_append, List.append_assoc]
      exact readValue_eq_ok_iff.2 (.array blank read (closeArray_closing rest))
  | object members ih =>
    intro blanks inner rest blank text small ends
    obtain ⟨levels, rfl⟩ := Nat.exists_eq_succ_of_ne_zero (Nat.ne_zero_of_lt flat)
    cases text with
    | @object members body row =>
      have back : ∀ m ∈ members, ReadsBack (readValue budget levels) IsText budget m.2 :=
        fun m member => ih m member (nesting_object_le_succ.1 flat m member)
      simp only [List.length_cons, List.length_append] at small
      have few := length_le_of_row (starts_isMember IsText) row
      have read : foldMembers (gatherMember (readValue budget levels)) budget budget true []
          (body ++ '\x7d' :: rest) = .ok (members.reverse ++ [], '\x7d' :: rest) :=
        foldMembers_of_row row (by omega) (Nat.le_refl budget) back (by omega)
      rw [List.append_nil] at read
      rw [List.cons_append, List.append_assoc]
      exact readValue_eq_ok_iff.2 (.object blank read (closeObject_closing rest))

/-! ## Whole texts -/

theorem endsScalar_of_areBlank {blanks : List Char} (blank : AreBlank blanks) :
    EndsScalar blanks := by
  have ends : EndsScalar [] := nofun
  rw [← List.append_nil blanks]
  exact ends.of_areBlank blank

/-- A text, blanks around it apart, stands for one value at most. -/
theorem eq_of_isText {before inner after before' inner' after' : List Char} {j j' : Json}
    (blank : AreBlank before) (text : IsText j inner) (blank' : AreBlank after)
    (other : AreBlank before') (text' : IsText j' inner') (other' : AreBlank after')
    (same : before ++ (inner ++ after) = before' ++ (inner' ++ after')) : j = j' := by
  -- With levels and a budget that suffice for both, one reader gives back either value.
  have read := readsBack_readValue (Nat.le_max_left j.nesting j'.nesting) blank text
    (Nat.le_add_right inner.length inner'.length) (endsScalar_of_areBlank blank')
  have read' := readsBack_readValue (Nat.le_max_right j.nesting j'.nesting) other text'
    (Nat.le_add_left inner'.length inner.length) (endsScalar_of_areBlank other')
  rw [same, read'] at read
  cases read
  rfl

/-- A whole text is accepted for one value at most. -/
theorem eq_of_isAcceptable {j j' : Json} {t : List Char} (acceptable : IsAcceptable j t)
    (acceptable' : IsAcceptable j' t) : j = j' := by
  generalize same : t = t' at acceptable'
  cases acceptable with
  | intro blank text blank' =>
    cases acceptable' with
    | intro other text' other' => exact eq_of_isText blank text blank' other text' other' same

/-- What holds of some value that a text is accepted for holds of any such value. -/
theorem exists_isAcceptable_iff {j : Json} {t : List Char} (acceptable : IsAcceptable j t)
    {holds : Json → Prop} : (∃ j', IsAcceptable j' t ∧ holds j') ↔ holds j := by
  constructor
  · rintro ⟨j', acceptable', held⟩
    rwa [eq_of_isAcceptable acceptable acceptable']
  · exact fun held => ⟨j, acceptable, held⟩

/-- A whole text is read if only blanks follow what is read of it. -/
theorem fromText_eq_ok_iff {α : Type} {reader : Nat → Reader α} {text : String} {a : α} :
    fromText reader text = .ok a ↔
      ∃ rest, reader (budgetFor text.toList) text.toList = .ok (a, rest) ∧ AreBlank rest := by
  unfold fromText readWholeText
  cases reader (budgetFor text.toList) text.toList with
  | error fault => simp [Except.mapError]
  | ok found =>
    obtain ⟨a', rest⟩ := found
    simp only [ok_bind, Except.ok.injEq, Prod.mk.injEq, and_assoc]
    split
    next ended =>
      have blank := areBlank_of_skipBlanks ended
      simp [Except.mapError, blank]
    next c tail skipped =>
      have marked : ¬ AreBlank rest := by
        intro blank
        rw [skipBlanks_of_areBlank blank] at skipped
        cases skipped
      simp [Except.mapError, failPeeking, marked]

theorem valueOfText_eq_ok_iff {text : String} {j : Json} :
    valueOfText text = .ok j ↔ IsAcceptable j text.toList := by
  rw [valueOfText, fromText_eq_ok_iff]
  constructor
  · rintro ⟨rest, read, blank'⟩
    obtain ⟨before, inner, blank, ⟨isText, flat⟩, split⟩ := readsOnly_readValue _ _ read
    rw [split]
    exact .intro blank isText blank' flat
  · intro acceptable
    generalize budget : budgetFor text.toList = rounds
    generalize text.toList = cs at acceptable budget
    cases acceptable with
    | @intro before inner after blank isText blank' flat =>
      refine ⟨after, readsBack_readValue flat blank isText ?_ (endsScalar_of_areBlank blank'),
        blank'⟩
      simp only [budgetFor, List.length_append] at budget
      omega

/-- If a reader reads a value and then takes it for something, a whole text is read by it exactly if
it is accepted for a value that is taken so. -/
theorem fromText_eq_ok_iff_taken {α : Type} (reader : Nat → Reader α) (takes : Json → α → Prop)
    {text : String} {a : α}
    (same : ∀ rest, reader (budgetFor text.toList) text.toList = .ok (a, rest) ↔
      ∃ j, readValue (budgetFor text.toList) maxNesting text.toList = .ok (j, rest) ∧ takes j a) :
    fromText reader text = .ok a ↔ ∃ j, IsAcceptable j text.toList ∧ takes j a := by
  simp only [fromText_eq_ok_iff, same, ← valueOfText_eq_ok_iff, valueOfText]
  constructor
  · rintro ⟨rest, ⟨j, read, taken⟩, blank⟩
    exact ⟨j, ⟨rest, read, blank⟩, taken⟩
  · rintro ⟨j, ⟨rest, read, blank⟩, taken⟩
    exact ⟨rest, ⟨j, read, taken⟩, blank⟩

end RecipeEngine.Decode
