import RecipeEngine.Decode.Value
import RecipeEngine.Proofs.Decode.Number
import RecipeEngine.Proofs.Decode.String

/-!
# Reading containers

The walk through a container, whatever is read in it.  If the reader of a part consumes only texts
of what it gives (`ReadsOnly`), then what the walk consumes is a row of such texts; if it gives the
parts back from their texts (`ReadsBack`), then the walk gives back the row.  The walk stops before
the closing bracket.
-/

namespace RecipeEngine.Decode

open Json

/-- What a reader consumes, blanks in front apart, is a text of what it gives. -/
def ReadsOnly {α : Type} (read : Reader α) (text : α → List Char → Prop) : Prop :=
  ∀ ⦃cs a rest⦄, read cs = .ok (a, rest) →
    ∃ blanks inner, AreBlank blanks ∧ text a inner ∧ cs = blanks ++ (inner ++ rest)

/-- A reader gives `a` back from its texts of at most `size` characters. -/
def ReadsBack {α : Type} (read : Reader α) (text : α → List Char → Prop) (size : Nat) (a : α) :
    Prop :=
  ∀ ⦃blanks inner rest⦄, AreBlank blanks → text a inner → inner.length ≤ size →
    EndsScalar rest → read (blanks ++ (inner ++ rest)) = .ok (a, rest)

/-- Every text begins with a character that is neither blank nor the end of a container. -/
def Starts {α : Type} (text : α → List Char → Prop) : Prop :=
  ∀ ⦃a t⦄, text a t → ∃ c cs, t = c :: cs ∧ isJsonBlank c = false ∧ c ≠ ']' ∧ c ≠ '\x7d'

/-! ## Rows -/

section

variable {α : Type} {text : α → List Char → Prop} {first : Bool} {as : List α} {t rest : List Char}

theorem EndsScalar.of_areBlank {blanks : List Char} (blank : AreBlank blanks)
    (ends : EndsScalar rest) : EndsScalar (blanks ++ rest) := by
  cases blanks with
  | nil => exact ends
  | cons b blanks =>
    intro c isHead
    cases isHead
    have listed := blank b (List.mem_cons_self ..)
    exact List.mem_append_left [',', ']', '\x7d'] listed

/-- What comes after a part of a container ends it, be it a scalar. -/
theorem endsScalar_of_row (row : Row text false as t) (ends : EndsScalar rest) :
    EndsScalar (t ++ rest) := by
  cases row with
  | nil blank => exact .of_areBlank blank ends
  | cons gap inner later =>
    cases gap with
    | later blank blank' =>
      rw [List.append_assoc, List.append_assoc]
      refine .of_areBlank blank fun c isHead => ?_
      cases isHead
      decide

theorem length_le_of_row (starts : Starts text) (row : Row text first as t) :
    as.length ≤ t.length := by
  induction row with
  | nil => exact Nat.zero_le _
  | cons gap inner later ih =>
    obtain ⟨c, cs, rfl, -⟩ := starts inner
    simp only [List.length_append, List.length_cons]
    omega

end

/-! ## From item to item -/

section

variable {first : Bool} {cs rest : List Char}

theorem exists_of_nextItem_true (next : nextItem first cs = .ok (true, rest)) :
    ∃ gap, IsGap first gap ∧ cs = gap ++ rest := by
  unfold nextItem at next
  split at next
  next => cases failPeeking_ne_ok next
  next c tail skipped =>
    obtain ⟨blanks, blank, rfl, -⟩ := exists_of_skipBlanks skipped
    split at next
    next => cases next
    next =>
      split at next
      next isFirst =>
        cases next
        rw [isFirst]
        exact ⟨blanks, .first blank, rfl⟩
      next notFirst =>
        rw [Bool.not_eq_true] at notFirst
        split at next
        next comma =>
          split at next
          next => cases failPeeking_ne_ok next
          next d tail' skipped' =>
            obtain ⟨blanks', blank', rfl, -⟩ := exists_of_skipBlanks skipped'
            split at next
            next => cases failPeeking_ne_ok next
            next =>
              cases next
              refine ⟨blanks ++ ',' :: blanks', notFirst ▸ .later blank blank', ?_⟩
              simp [comma]
        next => cases failPeeking_ne_ok next

theorem exists_of_nextItem_false (next : nextItem first cs = .ok (false, rest)) :
    ∃ blanks after, AreBlank blanks ∧ rest = ']' :: after ∧ cs = blanks ++ rest := by
  unfold nextItem at next
  split at next
  next => cases failPeeking_ne_ok next
  next c tail skipped =>
    obtain ⟨blanks, blank, rfl, -⟩ := exists_of_skipBlanks skipped
    split at next
    next closing =>
      cases next
      exact ⟨blanks, tail, blank, by rw [closing], rfl⟩
    next =>
      split at next
      next => cases next
      next =>
        split at next
        next =>
          split at next
          next => cases failPeeking_ne_ok next
          next =>
            split at next
            next => cases failPeeking_ne_ok next
            next => cases next
        next => cases failPeeking_ne_ok next

theorem nextItem_of_isGap {gap : List Char} {c : Char} (isGap : IsGap first gap)
    (marked : isJsonBlank c = false) (open' : c ≠ ']') :
    nextItem first (gap ++ c :: cs) = .ok (true, c :: cs) := by
  cases isGap with
  | first blank =>
    simp only [nextItem, skipBlanks_append blank, skipBlanks_cons marked, open', reduceIte]
  | later blank blank' =>
    have comma : isJsonBlank ',' = false := by decide
    simp only [nextItem, List.append_assoc, List.cons_append, skipBlanks_append blank,
      skipBlanks_cons comma, skipBlanks_append blank', skipBlanks_cons marked, open', reduceIte,
      Bool.false_eq_true, Char.reduceEq]

theorem nextItem_of_areBlank {blanks : List Char} (blank : AreBlank blanks) :
    nextItem first (blanks ++ ']' :: cs) = .ok (false, ']' :: cs) := by
  have closing : isJsonBlank ']' = false := by decide
  simp only [nextItem, skipBlanks_append blank, skipBlanks_cons closing, reduceIte]

end

section

variable {α : Type} {item : Reader α} {text : α → List Char → Prop}

theorem exists_of_readItems (only : ReadsOnly item text) {rounds : Nat} {first : Bool}
    {cs rest : List Char} {as : List α} (read : readItems item rounds first cs = .ok (as, rest)) :
    as.length < rounds ∧
      ∃ t after, Row text first as t ∧ rest = ']' :: after ∧ cs = t ++ rest := by
  induction rounds generalizing first cs as with
  | zero => cases failAt_ne_ok read
  | succ rounds ih =>
    simp only [readItems, bind_eq_ok_iff, Prod.exists] at read
    obtain ⟨more, _, next, read⟩ := read
    cases more with
    | false =>
      simp only [Bool.false_eq_true, reduceIte, Except.ok.injEq, Prod.mk.injEq] at read
      obtain ⟨rfl, rfl⟩ := read
      obtain ⟨blanks, after, blank, rfl, rfl⟩ := exists_of_nextItem_false next
      exact ⟨Nat.succ_pos _, blanks, after, .nil blank, rfl, rfl⟩
    | true =>
      simp only [reduceIte, bind_eq_ok_iff, Prod.exists] at read
      obtain ⟨a, _, readItem, as', _, readLater, same⟩ := read
      cases same
      obtain ⟨gap, isGap, rfl⟩ := exists_of_nextItem_true next
      obtain ⟨blanks, inner, blank, isText, rfl⟩ := only readItem
      obtain ⟨few, later, after, row, rfl, rfl⟩ := ih readLater
      refine ⟨Nat.succ_lt_succ few, (gap ++ blanks) ++ (inner ++ later), after,
        .cons ?_ isText row, rfl, by simp⟩
      -- The blanks that the item's reader passed over are part of the gap.
      cases isGap with
      | first blank' => exact .first (areBlank_append blank' blank)
      | later before after =>
        rw [List.append_assoc]
        exact .later before (areBlank_append after blank)

theorem readItems_of_row (starts : Starts text) {size rounds : Nat} {first : Bool} {as : List α}
    {t rest : List Char} (row : Row text first as t) (small : t.length ≤ size)
    (back : ∀ a ∈ as, ReadsBack item text size a) (enough : as.length < rounds) :
    readItems item rounds first (t ++ ']' :: rest) = .ok (as, ']' :: rest) := by
  induction row generalizing rounds with
  | nil blank =>
    obtain ⟨rounds, rfl⟩ := Nat.exists_eq_add_of_lt enough
    simp only [readItems, nextItem_of_areBlank blank, ok_bind, Bool.false_eq_true, reduceIte]
  | @cons first a as gap inner later isGap isText row ih =>
    obtain ⟨rounds, rfl⟩ := Nat.exists_eq_succ_of_ne_zero (Nat.ne_zero_of_lt enough)
    obtain ⟨here, later'⟩ := List.forall_mem_cons.1 back
    obtain ⟨c, cs, split, marked, open', -⟩ := starts isText
    simp only [List.length_append] at small
    -- An item is followed by a blank, a comma or the bracket, so even a numeral ends there.
    have ends : EndsScalar (later ++ ']' :: rest) :=
      endsScalar_of_row row fun c isHead => by cases isHead; decide
    have next : nextItem first (gap ++ c :: (cs ++ (later ++ ']' :: rest))) = .ok (true, _) :=
      nextItem_of_isGap isGap marked open'
    have readItem : item ([] ++ (inner ++ (later ++ ']' :: rest))) = .ok (a, _) :=
      here areBlank_nil isText (by omega) ends
    rw [split] at readItem
    have readLater := ih (by omega) later' (Nat.lt_of_succ_lt_succ enough)
    simp only [split, readItems, List.append_assoc, List.cons_append, next, ok_bind, reduceIte]
    simp only [List.nil_append, List.cons_append] at readItem
    simp only [readItem, readLater, ok_bind]

/-- How many rounds there are does not matter as long as they suffice. -/
theorem readItems_rounds {rounds rounds' : Nat} {first : Bool} {cs rest : List Char} {as : List α}
    (read : readItems item rounds first cs = .ok (as, rest)) (enough : as.length < rounds') :
    readItems item rounds' first cs = .ok (as, rest) := by
  induction rounds generalizing rounds' first cs as with
  | zero => cases failAt_ne_ok read
  | succ rounds ih =>
    obtain ⟨rounds', rfl⟩ := Nat.exists_eq_succ_of_ne_zero (Nat.ne_zero_of_lt enough)
    simp only [readItems, bind_eq_ok_iff, Prod.exists] at read ⊢
    obtain ⟨more, after, next, read⟩ := read
    refine ⟨more, after, next, ?_⟩
    cases more with
    | false => exact read
    | true =>
      simp only [reduceIte, bind_eq_ok_iff, Prod.exists] at read ⊢
      obtain ⟨a, after, readItem, as', _, readLater, same⟩ := read
      cases same
      exact ⟨a, after, readItem, as', rest, ih readLater (Nat.lt_of_succ_lt_succ enough), rfl⟩

theorem readArray_eq_ok_iff {body : Reader α} {cs rest : List Char} {a : α} :
    readArray body cs = .ok (a, rest) ↔
      ∃ after, body (cs.drop 1) = .ok (a, after) ∧ closeArray after = .ok ((), rest) := by
  unfold readArray
  cases body (cs.drop 1) with
  | error fault => simp
  | ok found =>
    obtain ⟨a', after⟩ := found
    simp only [map_eq_ok_iff, Prod.exists, Prod.mk.injEq, Except.ok.injEq]
    constructor
    · rintro ⟨_, _, closed, rfl, rfl⟩
      exact ⟨after, ⟨rfl, rfl⟩, closed⟩
    · rintro ⟨_, ⟨rfl, rfl⟩, closed⟩
      exact ⟨(), rest, closed, rfl, rfl⟩

theorem closeArray_closing (cs : List Char) : closeArray (']' :: cs) = .ok ((), cs) := by
  have closing : isJsonBlank ']' = false := by decide
  simp only [closeArray, skipBlanks_cons closing, reduceIte]

end

/-! ## From member to member -/

section

variable {first : Bool} {cs rest : List Char}

theorem exists_of_nextMember_true (next : nextMember first cs = .ok (true, rest)) :
    ∃ gap, IsGap first gap ∧ cs = gap ++ '"' :: rest := by
  unfold nextMember at next
  split at next
  next => cases failPeeking_ne_ok next
  next c tail skipped =>
    obtain ⟨blanks, blank, rfl, -⟩ := exists_of_skipBlanks skipped
    split at next
    next => cases next
    next =>
      split at next
      next isFirst =>
        split at next
        next quote =>
          cases next
          rw [isFirst, quote]
          exact ⟨blanks, .first blank, rfl⟩
        next => cases failPeeking_ne_ok next
      next notFirst =>
        rw [Bool.not_eq_true] at notFirst
        split at next
        next comma =>
          split at next
          next => cases failPeeking_ne_ok next
          next d tail' skipped' =>
            obtain ⟨blanks', blank', rfl, -⟩ := exists_of_skipBlanks skipped'
            split at next
            next quote =>
              cases next
              refine ⟨blanks ++ ',' :: blanks', notFirst ▸ .later blank blank', ?_⟩
              simp [comma, quote]
            next =>
              split at next
              next => cases failPeeking_ne_ok next
              next => cases failPeeking_ne_ok next
        next => cases failPeeking_ne_ok next

theorem exists_of_nextMember_false (next : nextMember first cs = .ok (false, rest)) :
    ∃ blanks after, AreBlank blanks ∧ rest = '\x7d' :: after ∧ cs = blanks ++ rest := by
  unfold nextMember at next
  split at next
  next => cases failPeeking_ne_ok next
  next c tail skipped =>
    obtain ⟨blanks, blank, rfl, -⟩ := exists_of_skipBlanks skipped
    split at next
    next closing =>
      cases next
      exact ⟨blanks, tail, blank, by rw [closing], rfl⟩
    next =>
      split at next
      next =>
        split at next
        next => cases next
        next => cases failPeeking_ne_ok next
      next =>
        split at next
        next =>
          split at next
          next => cases failPeeking_ne_ok next
          next =>
            split at next
            next => cases next
            next =>
              split at next
              next => cases failPeeking_ne_ok next
              next => cases failPeeking_ne_ok next
        next => cases failPeeking_ne_ok next

theorem nextMember_of_isGap {gap : List Char} (isGap : IsGap first gap) :
    nextMember first (gap ++ '"' :: cs) = .ok (true, cs) := by
  have quote : isJsonBlank '"' = false := by decide
  cases isGap with
  | first blank =>
    simp only [nextMember, skipBlanks_append blank, skipBlanks_cons quote, reduceIte,
      Char.reduceEq]
  | later blank blank' =>
    have comma : isJsonBlank ',' = false := by decide
    simp only [nextMember, List.append_assoc, List.cons_append, skipBlanks_append blank,
      skipBlanks_cons comma, skipBlanks_append blank', skipBlanks_cons quote, reduceIte,
      Bool.false_eq_true, Char.reduceEq]

theorem nextMember_of_areBlank {blanks : List Char} (blank : AreBlank blanks) :
    nextMember first (blanks ++ '\x7d' :: cs) = .ok (false, '\x7d' :: cs) := by
  have closing : isJsonBlank '\x7d' = false := by decide
  simp only [nextMember, skipBlanks_append blank, skipBlanks_cons closing, reduceIte]

theorem readColon_eq_ok_iff {u : Unit} :
    readColon cs = .ok (u, rest) ↔ ∃ blanks, AreBlank blanks ∧ cs = blanks ++ ':' :: rest := by
  constructor
  · intro read
    unfold readColon at read
    split at read
    next => cases failPeeking_ne_ok read
    next c tail skipped =>
      obtain ⟨blanks, blank, rfl, -⟩ := exists_of_skipBlanks skipped
      split at read
      next colon =>
        cases read
        exact ⟨blanks, blank, by rw [colon]⟩
      next => cases failPeeking_ne_ok read
  · rintro ⟨blanks, blank, rfl⟩
    have colon : isJsonBlank ':' = false := by decide
    simp only [readColon, skipBlanks_append blank, skipBlanks_cons colon, reduceIte]

/-- A value is read behind a colon. -/
def ReadsAfterColon (value : Reader Json) (cs : List Char) (j : Json) (rest : List Char) : Prop :=
  ∃ after, readColon cs = .ok ((), after) ∧ value after = .ok (j, rest)

theorem gatherMember_eq_ok_iff {value : Reader Json} {gathered all : List (String × Json)}
    {name : String} :
    gatherMember value gathered name cs = .ok (all, rest) ↔
      ∃ j, ReadsAfterColon value cs j rest ∧ (name, j) :: gathered = all := by
  simp only [gatherMember, bind_eq_ok_iff, Prod.exists, Except.ok.injEq, Prod.mk.injEq]
  constructor
  · rintro ⟨_, after, colon, j, _, read, same, rfl⟩
    exact ⟨j, ⟨after, colon, read⟩, same⟩
  · rintro ⟨j, ⟨after, colon, read⟩, same⟩
    exact ⟨(), after, colon, j, rest, read, same, rfl⟩

end

section

variable {value : Reader Json} {text : Json → List Char → Prop}

theorem starts_isMember (text : Json → List Char → Prop) : Starts (IsMember text) := by
  intro m t member
  cases member with
  | intro name =>
    cases name with
    | intro => exact ⟨'"', _, rfl, by decide⟩

theorem exists_of_foldMembers (only : ReadsOnly value text) {budget rounds : Nat} {first : Bool}
    {cs rest : List Char} {gathered all : List (String × Json)}
    (read : foldMembers (gatherMember value) budget rounds first gathered cs = .ok (all, rest)) :
    ∃ members t after, all = members.reverse ++ gathered ∧ Row (IsMember text) first members t ∧
      rest = '\x7d' :: after ∧ cs = t ++ rest := by
  induction rounds generalizing first cs gathered with
  | zero => cases failAt_ne_ok read
  | succ rounds ih =>
    simp only [foldMembers, bind_eq_ok_iff, Prod.exists] at read
    obtain ⟨more, _, next, read⟩ := read
    cases more with
    | false =>
      simp only [Bool.false_eq_true, reduceIte, Except.ok.injEq, Prod.mk.injEq] at read
      obtain ⟨rfl, rfl⟩ := read
      obtain ⟨blanks, after, blank, rfl, rfl⟩ := exists_of_nextMember_false next
      exact ⟨[], blanks, after, rfl, .nil blank, rfl, rfl⟩
    | true =>
      simp only [reduceIte, bind_eq_ok_iff, Prod.exists, gatherMember_eq_ok_iff] at read
      obtain ⟨name, _, readName, _, _, ⟨j, ⟨_, colon, readValue⟩, rfl⟩, read⟩ := read
      obtain ⟨gap, isGap, rfl⟩ := exists_of_nextMember_true next
      obtain ⟨first, split, isName⟩ := exists_of_readString readName
      obtain ⟨before, blank, rfl⟩ := readColon_eq_ok_iff.1 colon
      obtain ⟨blanks, inner, blank', isText, rfl⟩ := only readValue
      obtain ⟨members, later, after, rfl, row, rfl, rfl⟩ := ih read
      refine ⟨(name, j) :: members,
        gap ++ ((first ++ (before ++ ':' :: (blanks ++ inner))) ++ later), after, by simp,
        .cons isGap (.intro isName blank blank' isText) row, rfl, ?_⟩
      rw [split]
      simp

theorem foldMembers_of_row {size budget rounds : Nat} {first : Bool}
    {members gathered : List (String × Json)} {t rest : List Char}
    (row : Row (IsMember text) first members t) (small : t.length ≤ size) (within : size ≤ budget)
    (back : ∀ m ∈ members, ReadsBack value text size m.2) (enough : members.length < rounds) :
    foldMembers (gatherMember value) budget rounds first gathered (t ++ '\x7d' :: rest) =
      .ok (members.reverse ++ gathered, '\x7d' :: rest) := by
  induction row generalizing rounds gathered with
  | nil blank =>
    obtain ⟨rounds, rfl⟩ := Nat.exists_eq_add_of_lt enough
    simp only [foldMembers, nextMember_of_areBlank blank, ok_bind, Bool.false_eq_true, reduceIte,
      List.reverse_nil, List.nil_append]
  | @cons first m members gap inner later isGap isMember row ih =>
    obtain ⟨rounds, rfl⟩ := Nat.exists_eq_succ_of_ne_zero (Nat.ne_zero_of_lt enough)
    obtain ⟨here, later'⟩ := List.forall_mem_cons.1 back
    simp only [List.length_append] at small
    have ends : EndsScalar (later ++ '\x7d' :: rest) :=
      endsScalar_of_row row fun c isHead => by cases isHead; decide
    cases isMember with
    | @intro name j title before blanks inner isName blank blank' isText =>
      simp only [List.length_append, List.length_cons] at small
      obtain ⟨body, rfl, readName⟩ := readString_of_isStringText isName
        (by omega : title.length ≤ budget)
        (before ++ ':' :: (blanks ++ (inner ++ (later ++ '\x7d' :: rest))))
      have colon : readColon (before ++ ':' :: (blanks ++ (inner ++ (later ++ '\x7d' :: rest)))) =
          .ok ((), _) := readColon_eq_ok_iff.2 ⟨before, blank, rfl⟩
      have readValue := here blank' isText (by omega) ends
      have readLater : foldMembers (gatherMember value) budget rounds false ((name, j) :: gathered)
          (later ++ '\x7d' :: rest) = .ok (members.reverse ++ (name, j) :: gathered, _) :=
        ih (by omega) later' (Nat.lt_of_succ_lt_succ enough)
      simp only [foldMembers, List.append_assoc, List.cons_append, nextMember_of_isGap isGap,
        ok_bind, reduceIte, readName, gatherMember, colon, readValue, readLater,
        List.reverse_cons, List.nil_append]

end

section

variable {α : Type}

theorem readObject_eq_ok_iff {body : Reader α} {cs rest : List Char} {a : α} :
    readObject body cs = .ok (a, rest) ↔
      ∃ after, body (cs.drop 1) = .ok (a, after) ∧ closeObject after = .ok ((), rest) := by
  unfold readObject
  cases body (cs.drop 1) with
  | error fault => simp
  | ok found =>
    obtain ⟨a', after⟩ := found
    simp only [map_eq_ok_iff, Prod.exists, Prod.mk.injEq, Except.ok.injEq]
    constructor
    · rintro ⟨_, _, closed, rfl, rfl⟩
      exact ⟨after, ⟨rfl, rfl⟩, closed⟩
    · rintro ⟨_, ⟨rfl, rfl⟩, closed⟩
      exact ⟨(), rest, closed, rfl, rfl⟩

theorem closeObject_closing (cs : List Char) : closeObject ('\x7d' :: cs) = .ok ((), cs) := by
  have closing : isJsonBlank '\x7d' = false := by decide
  simp only [closeObject, skipBlanks_cons closing, reduceIte]

end

end RecipeEngine.Decode
