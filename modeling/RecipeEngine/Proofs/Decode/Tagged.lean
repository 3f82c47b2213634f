import RecipeEngine.Decode.Tagged
import RecipeEngine.Proofs.Decode.Record
import RecipeEngine.Proofs.Decode.Value

/-!
# What a tagged value accepts

A tagged value is read from a text in two steps, the tag being looked at before the rest is known.
That makes no difference to what is accepted: reading a text straight is reading it as a JSON value
and decoding the value (`Tagged.read_eq_ok_iff`).  An object is decoded if one member, wherever it
stands, is the tag, and the others are what the tag asks for
(`Tagged.decode_object_eq_ok_iff`).
-/

namespace RecipeEngine.Decode

open Json

/-! ## Items read straight -/

/-- If reading an item amounts to reading a part and taking it for something, then so does reading
the items of an array. -/
theorem readItems_eq_ok_iff_taken {α β : Type} {part : Reader α} {text : α → List Char → Prop}
    (only : ReadsOnly part text) {item : Reader β} {takes : α → β → Prop} {size : Nat}
    (same : ∀ cs b rest, cs.length ≤ size →
      (item cs = .ok (b, rest) ↔ ∃ a, part cs = .ok (a, rest) ∧ takes a b))
    {rounds : Nat} {first : Bool} {cs rest : List Char} {bs : List β} (few : cs.length ≤ size) :
    readItems item rounds first cs = .ok (bs, rest) ↔
      ∃ as, readItems part rounds first cs = .ok (as, rest) ∧ List.Forall₂ takes as bs := by
  induction rounds generalizing first cs bs with
  | zero => simp [readItems]
  | succ rounds ih =>
    -- What is left only gets shorter, so `same` may be used at every item.
    have shorter : ∀ {after : List Char}, nextItem first cs = .ok (true, after) → after.length ≤ size := by
      intro after next
      obtain ⟨gap, -, rfl⟩ := exists_of_nextItem_true next
      rw [List.length_append] at few
      omega
    have shorterStill : ∀ {after later : List Char} {a : α},
        nextItem first cs = .ok (true, after) → part after = .ok (a, later) → later.length ≤ size := by
      intro after later a next read
      have bound := shorter next
      obtain ⟨blanks, inner, -, -, rfl⟩ := only read
      simp only [List.length_append] at bound
      omega
    simp only [readItems, bind_eq_ok_iff, Prod.exists]
    constructor
    · rintro ⟨more, after, next, read⟩
      cases more with
      | false =>
        cases read
        exact ⟨[], ⟨false, _, next, rfl⟩, .nil⟩
      | true =>
        simp only [reduceIte, bind_eq_ok_iff, Prod.exists] at read
        obtain ⟨b, later, readItem, bs', _, read, ended⟩ := read
        cases ended
        obtain ⟨a, readPart, taken⟩ := (same _ _ _ (shorter next)).1 readItem
        obtain ⟨as, readParts, allTaken⟩ := (ih (shorterStill next readPart)).1 read
        refine ⟨a :: as, ⟨true, after, next, ?_⟩, .cons taken allTaken⟩
        simp only [reduceIte, readPart, readParts, ok_bind]
    · rintro ⟨as, ⟨more, after, next, read⟩, allTaken⟩
      refine ⟨more, after, next, ?_⟩
      cases more with
      | false =>
        cases read
        cases allTaken
        rfl
      | true =>
        simp only [reduceIte, bind_eq_ok_iff, Prod.exists] at read
        obtain ⟨a, later, readPart, as', _, read, ended⟩ := read
        cases ended
        cases allTaken with
        | cons taken allTaken =>
          have readItem := (same _ _ _ (shorter next)).2 ⟨a, readPart, taken⟩
          have readItems := (ih (shorterStill next readPart)).2 ⟨as', read, allTaken⟩
          simp only [reduceIte, readItem, readItems, ok_bind]

/-! ## Members read straight -/

section

variable {σ : Type} {value : Reader Json} {text : Json → List Char → Prop} {budget rounds : Nat}
  {first : Bool} {cs rest : List Char}

/-- If reading a member amounts to reading its value and then taking a step, then going through an
object amounts to gathering its members and then taking the steps. -/
theorem foldMembers_eq_ok_iff (only : ReadsOnly value text) {member : σ → String → Reader σ}
    {step : σ → String × Json → Except ShapeError σ}
    (steps : ∀ s name cs s' rest, member s name cs = .ok (s', rest) ↔
      ∃ j, ReadsAfterColon value cs j rest ∧ step s (name, j) = .ok s')
    {s s' : σ} (gathered : List (String × Json)) :
    foldMembers member budget rounds first s cs = .ok (s', rest) ↔
      ∃ members : List (String × Json),
        foldMembers (gatherMember value) budget rounds first gathered cs =
          .ok (members.reverse ++ gathered, rest) ∧
        members.foldlM step s = .ok s' := by
  induction rounds generalizing first s cs gathered with
  | zero => simp [foldMembers]
  | succ rounds ih =>
    simp only [foldMembers, bind_eq_ok_iff, Prod.exists]
    constructor
    · rintro ⟨more, after, next, read⟩
      cases more with
      | false =>
        cases read
        exact ⟨[], ⟨false, _, next, rfl⟩, rfl⟩
      | true =>
        simp only [reduceIte, bind_eq_ok_iff, Prod.exists] at read
        obtain ⟨name, afterName, readName, s₁, afterMember, readMember, read⟩ := read
        obtain ⟨j, readValue, stepped⟩ := (steps ..).1 readMember
        obtain ⟨members, gather, folded⟩ := (ih ((name, j) :: gathered)).1 read
        have gathers : gatherMember value gathered name afterName =
            .ok ((name, j) :: gathered, afterMember) :=
          gatherMember_eq_ok_iff.2 ⟨j, readValue, rfl⟩
        refine ⟨(name, j) :: members, ⟨true, after, next, ?_⟩, ?_⟩
        · simp only [reduceIte, readName, gathers, ok_bind, gather, List.reverse_cons,
            List.append_assoc, List.cons_append, List.nil_append]
        · rw [List.foldlM_cons, stepped, ok_bind, folded]
    · rintro ⟨members, ⟨more, after, next, gather⟩, folded⟩
      refine ⟨more, after, next, ?_⟩
      cases more with
      | false =>
        simp only [Bool.false_eq_true, reduceIte, Except.ok.injEq, Prod.mk.injEq,
          List.self_eq_append_left] at gather
        obtain ⟨noMembers, rfl⟩ := gather
        rw [List.reverse_eq_nil_iff.1 noMembers] at folded
        cases folded
        rfl
      | true =>
        simp only [reduceIte, bind_eq_ok_iff, Prod.exists, gatherMember_eq_ok_iff] at gather
        obtain ⟨name, _, readName, _, _, ⟨j, readValue, rfl⟩, gather⟩ := gather
        -- What the rest of the object gives determines which member came first.
        obtain ⟨later, _, _, split, -⟩ := exists_of_foldMembers only gather
        have isCons : members = (name, j) :: later := by
          have cancelled : members.reverse ++ gathered =
              ((name, j) :: later).reverse ++ gathered := by rw [split]; simp
          exact List.reverse_inj.1 (List.append_cancel_right cancelled)
        subst isCons
        rw [List.foldlM_cons, bind_eq_ok_iff] at folded
        obtain ⟨s₁, stepped, folded⟩ := folded
        simp only [reduceIte, bind_eq_ok_iff, Prod.exists]
        refine ⟨name, _, readName, s₁, _, (steps ..).2 ⟨j, readValue, stepped⟩,
          (ih ((name, j) :: gathered)).2 ⟨later, ?_, folded⟩⟩
        rw [gather, split]

end

/-! ## Scalars read straight -/

section

variable {budget : Nat} {cs rest : List Char}

/-- Who refuses containers may stand still before them or read them first. -/
theorem readInto_eq_ok_iff (levels : Nat) {σ : Type} {put : Json → Except ShapeError σ} {s : σ}
    (noArray : ∀ items, put (.array items) ≠ .ok s)
    (noObject : ∀ members, put (.object members) ≠ .ok s) :
    Record.readInto budget put cs = .ok (s, rest) ↔
      ∃ j, readValue budget levels cs = .ok (j, rest) ∧ put j = .ok s := by
  have into : Record.readInto budget put cs = .ok (s, rest) ↔
      ∃ j, readShallow budget cs = .ok (j, rest) ∧ put j = .ok s := by
    simp only [Record.readInto, bind_eq_ok_iff, Prod.exists]
    constructor
    · rintro ⟨j, after, read, same⟩
      split at same
      next s' accepted =>
        cases same
        exact ⟨j, read, accepted⟩
      next => cases failShape_ne_ok same
    · rintro ⟨j, read, accepted⟩
      exact ⟨j, rest, read, by rw [accepted]⟩
  rw [into]
  constructor
  · rintro ⟨j, read, accepted⟩
    obtain ⟨blanks, tail, blank, rfl, ⟨t, -, same⟩ | ⟨t, -, same⟩ | ⟨j', scalar, same⟩⟩ :=
      exists_of_readByKind read
    · cases same
      exact absurd accepted (noArray [])
    · cases same
      exact absurd accepted (noObject [])
    · cases same
      exact ⟨j, readValue_eq_ok_iff.2 (.scalar blank scalar), accepted⟩
  · rintro ⟨j, read, accepted⟩
    cases readValue_eq_ok_iff.1 read with
    | array => exact absurd accepted (noArray _)
    | object => exact absurd accepted (noObject _)
    | scalar blank scalar => exact ⟨j, readByKind_of_readScalar blank scalar rfl, accepted⟩

end

namespace Tagged

variable {α : Type} {t : Tagged α} {style : TagStyle}

/-! ## Decoding an object -/

theorem gather_of_eq {g : Gathered α} {m : String × Json} (isTag : m.1 ∈ [tagName]) :
    t.gather style g m =
      if g.decode.isSome then .error (.repeatedMember tagName)
      else (t.ofTag style m.2).map fun decode => { g with decode := some decode } :=
  if_pos (List.mem_singleton.1 isTag)

theorem gather_of_ne {g : Gathered α} {m : String × Json} (other : m.1 ∉ [tagName]) :
    t.gather style g m = .ok { g with others := m :: g.others } :=
  if_neg fun isTag => other (List.mem_singleton.2 isTag)

/-- Once the tag came up no other may. -/
theorem foldlM_gather_some {members others : List (String × Json)} {decode : ContentDecoder α}
    {g : Gathered α} :
    members.foldlM (t.gather style) ⟨some decode, others⟩ = .ok g ↔
      valuesOf [tagName] members = [] ∧
        g = ⟨some decode, (without [tagName] members).reverse ++ others⟩ := by
  induction members generalizing others with
  | nil => simp [pure, Except.pure, eq_comm]
  | cons m members ih =>
    rw [List.foldlM_cons]
    by_cases isTag : m.1 ∈ [tagName]
    · rw [gather_of_eq isTag, valuesOf_cons_of_mem isTag]
      simp
    · rw [gather_of_ne isTag, valuesOf_cons_of_not_mem isTag, without_cons_of_not_mem isTag,
        ok_bind, ih, List.reverse_cons, List.append_assoc]
      rfl

theorem foldlM_gather_none {members others : List (String × Json)} {decode : ContentDecoder α}
    {all : List (String × Json)} :
    members.foldlM (t.gather style) ⟨none, others⟩ = .ok ⟨some decode, all⟩ ↔
      ∃ tag, valuesOf [tagName] members = [tag] ∧ t.ofTag style tag = .ok decode ∧
        all = (without [tagName] members).reverse ++ others := by
  induction members generalizing others with
  | nil => simp [pure, Except.pure]
  | cons m members ih =>
    rw [List.foldlM_cons]
    by_cases isTag : m.1 ∈ [tagName]
    · rw [gather_of_eq isTag, valuesOf_cons_of_mem isTag, without_cons_of_mem isTag]
      simp only [Option.isSome_none, Bool.false_eq_true, reduceIte, bind_eq_ok_iff,
        map_eq_ok_iff]
      constructor
      · rintro ⟨_, ⟨decode', named, rfl⟩, folded⟩
        obtain ⟨noMore, same⟩ := foldlM_gather_some.1 folded
        cases same
        exact ⟨m.2, by rw [noMore], named, rfl⟩
      · rintro ⟨tag, single, named, rfl⟩
        obtain ⟨rfl, noMore⟩ := List.cons.inj single
        exact ⟨_, ⟨decode, named, rfl⟩, foldlM_gather_some.2 ⟨noMore, rfl⟩⟩
    · rw [gather_of_ne isTag, valuesOf_cons_of_not_mem isTag, without_cons_of_not_mem isTag,
        ok_bind, ih, List.reverse_cons, List.append_assoc]
      rfl

theorem finish_eq_ok_iff {g : Gathered α} {decode : ContentDecoder α} :
    g.finish = .ok decode ↔ g.decode = some decode := by
  unfold Gathered.finish
  cases g.decode <;> simp

/-- An object is decoded if one of its members is the tag and the others are what the tag asks
for, in whatever order they stand. -/
theorem decode_object_eq_ok_iff {members : List (String × Json)} {a : α} :
    t.decode style (.object members) = .ok a ↔
      ∃ tag decode, valuesOf [tagName] members = [tag] ∧ t.ofTag style tag = .ok decode ∧
        decode (.members (without [tagName] members)) = .ok a := by
  simp only [Tagged.decode, bind_eq_ok_iff, finish_eq_ok_iff]
  constructor
  · rintro ⟨⟨found, all⟩, folded, decode, rfl, decoded⟩
    obtain ⟨tag, single, named, rfl⟩ := foldlM_gather_none.1 folded
    rw [List.append_nil, List.reverse_reverse] at decoded
    exact ⟨tag, decode, single, named, decoded⟩
  · rintro ⟨tag, decode, single, named, decoded⟩
    refine ⟨_, foldlM_gather_none.2 ⟨tag, single, named, rfl⟩, decode, rfl, ?_⟩
    rwa [List.append_nil, List.reverse_reverse]

theorem decode_array_eq_ok_iff {items : List Json} {a : α} :
    t.decode style (.array items) = .ok a ↔
      ∃ tag rest decode, items = tag :: rest ∧ t.ofTag style tag = .ok decode ∧
        decode (.items rest) = .ok a := by
  cases items with
  | nil => simp [Tagged.decode]
  | cons tag rest =>
    simp only [Tagged.decode, bind_eq_ok_iff, List.cons.injEq]
    constructor
    · rintro ⟨decode, named, decoded⟩
      exact ⟨tag, rest, decode, ⟨rfl, rfl⟩, named, decoded⟩
    · rintro ⟨_, _, decode, ⟨rfl, rfl⟩, named, decoded⟩
      exact ⟨decode, named, decoded⟩

/-- A value is tagged with `tag` and holds `content` besides. -/
inductive IsTagged : Json → Json → Content → Prop
  | object {members : List (String × Json)} {tag : Json} :
      valuesOf [tagName] members = [tag] →
      IsTagged (.object members) tag (.members (without [tagName] members))
  | array {tag : Json} {items : List Json} : IsTagged (.array (tag :: items)) tag (.items items)

theorem notTagged_ne_ok {β : Type} {j : Json} {b : β} : t.notTagged j ≠ .ok b := nofun

/-- A value is decoded if it is tagged and its tag asks for a decoder of what else it holds. -/
theorem decode_eq_ok_iff {j : Json} {a : α} :
    t.decode style j = .ok a ↔
      ∃ tag content decode, IsTagged j tag content ∧ t.ofTag style tag = .ok decode ∧
        decode content = .ok a := by
  constructor
  · intro decoded
    cases j with
    | object members =>
      obtain ⟨tag, decode, single, named, accepted⟩ := decode_object_eq_ok_iff.1 decoded
      exact ⟨tag, _, decode, .object single, named, accepted⟩
    | array items =>
      obtain ⟨tag, rest, decode, rfl, named, accepted⟩ := decode_array_eq_ok_iff.1 decoded
      exact ⟨tag, _, decode, .array, named, accepted⟩
    | null => cases notTagged_ne_ok decoded
    | boolean => cases notTagged_ne_ok decoded
    | number => cases notTagged_ne_ok decoded
    | string => cases notTagged_ne_ok decoded
  · rintro ⟨tag, content, decode, isTagged, named, accepted⟩
    cases isTagged with
    | object single => exact decode_object_eq_ok_iff.2 ⟨tag, decode, single, named, accepted⟩
    | array => exact decode_array_eq_ok_iff.2 ⟨tag, _, decode, rfl, named, accepted⟩

theorem ofTag_name_eq_ok_iff {tag : Json} {decode : ContentDecoder α} :
    t.ofTag .name tag = .ok decode ↔ ∃ name, tag = .string name ∧ t.named name = .ok decode := by
  cases tag with
  | string name => simp [ofTag]
  | number n => cases n <;> simp [ofTag, wrongKind]
  | null => simp [ofTag, wrongKind]
  | boolean => simp [ofTag, wrongKind]
  | array => simp [ofTag, wrongKind]
  | object => simp [ofTag, wrongKind]

/-! ## Reading straight -/

theorem ofTag_array_ne_ok {items : List Json} {decode : ContentDecoder α} :
    t.ofTag style (.array items) ≠ .ok decode := by
  cases style <;> nofun

theorem ofTag_object_ne_ok {members : List (String × Json)} {decode : ContentDecoder α} :
    t.ofTag style (.object members) ≠ .ok decode := by
  cases style <;> nofun

section

variable {budget levels : Nat} {cs rest : List Char}

theorem readTag_eq_ok_iff (levels : Nat) {decode : ContentDecoder α} :
    t.readTag budget cs = .ok (decode, rest) ↔
      ∃ tag, readValue budget levels cs = .ok (tag, rest) ∧ t.ofTag .name tag = .ok decode :=
  readInto_eq_ok_iff levels (fun _ => ofTag_array_ne_ok) fun _ => ofTag_object_ne_ok

/-- Reading a member is reading its value and then looking at what it is. -/
theorem readMember_eq_ok_iff {g g' : Gathered α} {name : String} :
    t.readMember budget levels g name cs = .ok (g', rest) ↔
      ∃ j, ReadsAfterColon (readValue budget levels) cs j rest ∧
        t.gather .name g (name, j) = .ok g' := by
  by_cases isTag : name = tagName
  · by_cases repeated : g.decode.isSome = true
    · simp [Tagged.readMember, gather, isTag, repeated]
    · simp only [Tagged.readMember, gather, isTag, repeated, reduceIte, Bool.false_eq_true,
        bind_eq_ok_iff, Prod.exists, map_eq_ok_iff, readTag_eq_ok_iff levels]
      constructor
      · rintro ⟨_, after, colon, decode, _, ⟨j, read, named⟩, same⟩
        cases same
        exact ⟨j, ⟨after, colon, read⟩, decode, named, rfl⟩
      · rintro ⟨j, ⟨after, colon, read⟩, decode, named, rfl⟩
        exact ⟨(), after, colon, decode, rest, ⟨j, read, named⟩, rfl⟩
  · simp only [Tagged.readMember, gather, isTag, reduceIte, bind_eq_ok_iff, Prod.exists,
      gatherMember_eq_ok_iff]
    constructor
    · rintro ⟨_, _, ⟨j, read, rfl⟩, same⟩
      cases same
      exact ⟨j, read, rfl⟩
    · rintro ⟨j, read, same⟩
      cases same
      exact ⟨_, rest, ⟨j, read, rfl⟩, rfl⟩

theorem readMembers_eq_ok_iff {decode : ContentDecoder α} {content : Content} :
    t.readMembers budget levels cs = .ok ((decode, content), rest) ↔
      ∃ (members : List (String × Json)) (tag : Json),
        foldMembers (gatherMember (readValue budget levels)) budget budget true [] cs =
          .ok (members.reverse, rest) ∧
        valuesOf [tagName] members = [tag] ∧ t.ofTag .name tag = .ok decode ∧
        content = .members (without [tagName] members) := by
  have walk {g : Gathered α} {after : List Char} :
      foldMembers (t.readMember budget levels) budget budget true ⟨none, []⟩ cs = .ok (g, after) ↔
        ∃ members : List (String × Json),
          foldMembers (gatherMember (readValue budget levels)) budget budget true [] cs =
            .ok (members.reverse ++ [], after) ∧
          members.foldlM (t.gather .name) ⟨none, []⟩ = .ok g :=
    foldMembers_eq_ok_iff (readsOnly_readValue budget levels)
      (fun _ _ _ _ _ => readMember_eq_ok_iff) []
  simp only [List.append_nil] at walk
  simp only [Tagged.readMembers, bind_eq_ok_iff, Prod.exists, walk]
  constructor
  · rintro ⟨g, _, ⟨members, read, folded⟩, same⟩
    split at same
    next decode' finished =>
      cases same
      obtain ⟨found, all⟩ := g
      obtain rfl : found = some decode := finish_eq_ok_iff.1 finished
      obtain ⟨tag, single, named, rfl⟩ := foldlM_gather_none.1 folded
      exact ⟨members, tag, read, single, named, by simp⟩
    next => cases failUnplaced_ne_ok same
  · rintro ⟨members, tag, read, single, named, rfl⟩
    refine ⟨_, rest, ⟨members, read, foldlM_gather_none.2 ⟨tag, single, named, rfl⟩⟩, ?_⟩
    simp [Gathered.finish]

theorem readItems_eq_ok_iff (few : cs.length < budget) {decode : ContentDecoder α}
    {content : Content} :
    t.readItems budget levels cs = .ok ((decode, content), rest) ↔
      ∃ tag items,
        Decode.readItems (readValue budget levels) budget true cs = .ok (tag :: items, rest) ∧
        t.ofTag .name tag = .ok decode ∧ content = .items items := by
  have only := readsOnly_readValue budget levels
  obtain ⟨rounds, isSucc⟩ := Nat.exists_eq_succ_of_ne_zero (Nat.ne_zero_of_lt few)
  -- The plain reader spends one round on the tag.
  have unfolded : Decode.readItems (readValue budget levels) budget true cs =
      Decode.readItems (readValue budget levels) (rounds + 1) true cs := by rw [isSucc]
  rw [unfolded]
  simp only [Tagged.readItems, Decode.readItems, bind_eq_ok_iff, Prod.exists]
  constructor
  · rintro ⟨more, after, next, read⟩
    cases more with
    | false => cases failUnplaced_ne_ok read
    | true =>
      simp only [reduceIte, bind_eq_ok_iff, Prod.exists,
        readTag_eq_ok_iff levels] at read
      obtain ⟨decode', afterTag, ⟨tag, readTag, named⟩, items, _, read, same⟩ := read
      cases same
      -- The tag took a character, so the rounds that are left suffice for the other items.
      have short : items.length < rounds := by
        obtain ⟨gap, -, rfl⟩ := exists_of_nextItem_true next
        obtain ⟨blanks, inner, -, text, rfl⟩ := only readTag
        obtain ⟨-, later, after, row, rfl, rfl⟩ := exists_of_readItems only read
        obtain ⟨c, cs, rfl, -⟩ := starts_isText text.1
        have := length_le_of_row (fun _ _ text => starts_isText text.1) row
        simp only [List.length_append, List.length_cons] at few
        omega
      refine ⟨tag, items, ⟨true, after, next, ?_⟩, named, rfl⟩
      simp only [reduceIte, readTag, readItems_rounds read short, ok_bind]
  · rintro ⟨tag, items, ⟨more, after, next, read⟩, named, rfl⟩
    cases more with
    | false => cases read
    | true =>
      simp only [reduceIte, bind_eq_ok_iff, Prod.exists] at read
      obtain ⟨_, afterTag, readTag, _, _, read, same⟩ := read
      cases same
      have short : items.length < budget := by
        have := (exists_of_readItems only read).1
        omega
      refine ⟨true, after, next, ?_⟩
      simp only [reduceIte, bind_eq_ok_iff, Prod.exists,
        readTag_eq_ok_iff levels]
      exact ⟨decode, afterTag, ⟨tag, readTag, named⟩, items, rest, readItems_rounds read short, rfl⟩

/-- Reading a tagged value is reading it as JSON and decoding what was read. -/
theorem read_eq_ok_iff (few : cs.length < budget) {a : α} :
    t.read budget levels cs = .ok (a, rest) ↔
      ∃ j, readValue budget levels cs = .ok (j, rest) ∧ t.decode .name j = .ok a := by
  simp only [Tagged.read, bind_eq_ok_iff, Prod.exists]
  constructor
  · rintro ⟨decode, content, _, read, decoded⟩
    split at decoded
    next a' accepted =>
      cases decoded
      obtain ⟨blanks, tail, blank, rfl, ⟨cs, rfl, array⟩ | ⟨cs, rfl, object⟩ | ⟨j, -, scalar⟩⟩ :=
        exists_of_readByKind read
      · cases levels with
        | zero => cases failPeeking_ne_ok array
        | succ levels =>
          obtain ⟨after, read, close⟩ := readArray_eq_ok_iff.1 array
          simp only [List.length_append, List.length_cons] at few
          obtain ⟨tag, items, inside, named, rfl⟩ :=
            (readItems_eq_ok_iff (by simp only [List.drop_one, List.tail_cons]; omega)).1 read
          exact ⟨_, readValue_eq_ok_iff.2 (.array blank inside close),
            decode_array_eq_ok_iff.2 ⟨tag, items, decode, rfl, named, accepted⟩⟩
      · cases levels with
        | zero => cases failPeeking_ne_ok object
        | succ levels =>
          obtain ⟨after, read, close⟩ := readObject_eq_ok_iff.1 object
          obtain ⟨members, tag, inside, single, named, rfl⟩ := readMembers_eq_ok_iff.1 read
          exact ⟨_, readValue_eq_ok_iff.2 (.object blank inside close),
            decode_object_eq_ok_iff.2 ⟨tag, decode, single, named, accepted⟩⟩
      · cases notTagged_ne_ok scalar
    next => cases failUnplaced_ne_ok decoded
  · rintro ⟨j, read, decoded⟩
    cases readValue_eq_ok_iff.1 read with
    | array blank inside close =>
      obtain ⟨tag, items, decode, rfl, named, accepted⟩ := decode_array_eq_ok_iff.1 decoded
      simp only [List.length_append, List.length_cons] at few
      refine ⟨decode, .items items, rest, ?_, by rw [accepted]⟩
      rw [readByKind_array blank]
      exact readArray_eq_ok_iff.2 ⟨_, (readItems_eq_ok_iff
        (by simp only [List.drop_one, List.tail_cons]; omega)).2 ⟨tag, items, inside, named, rfl⟩,
        close⟩
    | object blank inside close =>
      obtain ⟨tag, decode, single, named, accepted⟩ := decode_object_eq_ok_iff.1 decoded
      refine ⟨decode, _, rest, ?_, by rw [accepted]⟩
      rw [readByKind_object blank]
      exact readObject_eq_ok_iff.2
        ⟨_, readMembers_eq_ok_iff.2 ⟨_, tag, inside, single, named, rfl⟩, close⟩
    | scalar blank scalar =>
      obtain ⟨_, -, flat, -⟩ := exists_of_readScalar scalar
      cases j with
      | array => cases flat
      | object => cases flat
      | null => cases notTagged_ne_ok decoded
      | boolean => cases notTagged_ne_ok decoded
      | number => cases notTagged_ne_ok decoded
      | string => cases notTagged_ne_ok decoded

end

/-- A whole text is read as a tagged value exactly if it is accepted for a JSON value that is
decoded as one. -/
theorem fromText_eq_ok_iff {text : String} {a : α} :
    fromText (fun budget => t.read budget maxNesting) text = .ok a ↔
      ∃ j, IsAcceptable j text.toList ∧ t.decode .name j = .ok a := by
  have few : text.toList.length < budgetFor text.toList := by simp only [budgetFor]; omega
  exact fromText_eq_ok_iff_taken (fun budget => t.read budget maxNesting)
    (fun j a => t.decode .name j = .ok a) fun _ => read_eq_ok_iff few

end Tagged

end RecipeEngine.Decode
