import RecipeEngine.Decode.Record
import RecipeEngine.Proofs.Decode.Reader
import RecipeEngine.Proofs.Json.Basic

/-!
# What a record accepts

The members of an object are decoded one after the other into slots.  What comes of it does not
depend on how members of different names are ordered: each member of the record takes the values
that go by its names, at most one, and an absent one stands for its default (`Record.Fits`).  An
array gives the members by place (`Record.Fills`).
-/

namespace RecipeEngine.Decode

open Json

/-! ## One member -/

namespace Member

variable {α : Type}

/-- All names that a member goes by. -/
def names (f : Member α) : List String := f.name :: f.aliases

theorem goesBy_iff {f : Member α} {name : String} : f.goesBy name = true ↔ name ∈ f.names := by
  simp [goesBy, names]

/-- What a member is, given the values that go by its names. -/
inductive Given (f : Member α) : List Json → α → Prop
  | absent {a : α} : f.absent = some a → Given f [] a
  | once {j : Json} {a : α} : f.decode j = .ok a → Given f [j] a

/-- What the slot of a member becomes when values come up for it. -/
inductive Takes (f : Member α) : Option α → List Json → Option α → Prop
  | nothing {slot : Option α} : Takes f slot [] slot
  | once {j : Json} {a : α} : f.decode j = .ok a → Takes f none [j] (some a)

theorem takes_some_iff {f : Member α} {a : α} {values : List Json} {slot : Option α} :
    f.Takes (some a) values slot ↔ values = [] ∧ slot = some a := by
  constructor
  · intro takes
    cases takes
    exact ⟨rfl, rfl⟩
  · rintro ⟨rfl, rfl⟩
    exact .nothing

theorem takes_none_cons_iff {f : Member α} {j : Json} {values : List Json} {slot : Option α} :
    f.Takes none (j :: values) slot ↔ ∃ a, f.decode j = .ok a ∧ values = [] ∧ slot = some a := by
  constructor
  · intro takes
    cases takes with
    | once decoded => exact ⟨_, decoded, rfl, rfl⟩
  · rintro ⟨a, decoded, rfl, rfl⟩
    exact .once decoded

/-- A member is what its slot is settled to in the end. -/
theorem given_iff {f : Member α} {values : List Json} {a : α} :
    f.Given values a ↔ ∃ slot, f.Takes none values slot ∧ Record.settle f slot = .ok a := by
  constructor
  · intro given
    cases given with
    | absent default => exact ⟨none, .nothing, by rw [Record.settle, default]⟩
    | once decoded => exact ⟨some a, .once decoded, rfl⟩
  · rintro ⟨slot, takes, settled⟩
    cases takes with
    | once decoded =>
      cases settled
      exact .once decoded
    | nothing =>
      unfold Record.settle at settled
      cases default : f.absent with
      | none =>
        rw [default] at settled
        cases settled
      | some a' =>
        rw [default] at settled
        cases settled
        exact .absent default

end Member

/-! ## All members -/

namespace Record

/-- All names that the members of a record go by. -/
def names : {α : Type} → Record α → List String
  | _, .nil => []
  | _, .cons f others => f.names ++ others.names

/-- No member of the record is a container. -/
def TakesScalars : {α : Type} → Record α → Prop
  | _, .nil => True
  | _, .cons f others => (∀ j a, f.decode j = .ok a → j.nesting = 0) ∧ others.TakesScalars

/-- The record that the members of an object stand for. -/
def Fits : {α : Type} → Record α → List (String × Json) → α → Prop
  | _, .nil, _, _ => True
  | _, @Record.cons α β f others, members, parts =>
      let (a, b) : α × β := parts
      f.Given (valuesOf f.names members) a ∧ others.Fits (without f.names members) b

/-- The record that the items of an array stand for. -/
def Fills : {α : Type} → Record α → List Json → α → Prop
  | _, .nil, items, _ => items = []
  | _, @Record.cons α β f others, [], parts =>
      let (a, b) : α × β := parts
      f.unfilled = some a ∧ others.Fills [] b
  | _, @Record.cons α β f others, j :: items, parts =>
      let (a, b) : α × β := parts
      f.decode j = .ok a ∧ others.Fills items b

section

variable {α β : Type} {f : Member α} {others : Record β}

/-- The slots of a record: that of its first member and those of the others. -/
def withSlot (slot : Option α) (later : others.Slots) : (cons f others).Slots := (slot, later)

theorem exists_withSlot (slots : (cons f others).Slots) :
    ∃ slot later, slots = withSlot slot later :=
  ⟨slots.1, slots.2, rfl⟩

theorem withSlot_inj {slot slot' : Option α} {later later' : others.Slots} :
    (withSlot slot later : (cons f others).Slots) = withSlot slot' later' ↔
      slot = slot' ∧ later = later' :=
  Prod.mk.injEq _ _ _ _ ▸ Iff.rfl

theorem finish_withSlot {slot : Option α} {later : others.Slots} {a : α} {b : β} :
    (cons f others).finish (withSlot slot later) = .ok (a, b) ↔
      settle f slot = .ok a ∧ others.finish later = .ok b := by
  simp only [finish, withSlot, bind_eq_ok_iff]
  constructor
  · rintro ⟨a', settled, b', finished, same⟩
    cases same
    exact ⟨settled, finished⟩
  · rintro ⟨settled, finished⟩
    exact ⟨a, settled, b, finished, rfl⟩

variable {slot : Option α} {later : others.Slots} {m : String × Json}

theorem addMember_of_mem (named : m.1 ∈ f.names) :
    (cons f others).addMember (withSlot slot later) m =
      match slot with
      | some _ => .error (.repeatedMember f.name)
      | none => (f.decode m.2).map fun a => withSlot (some a) later := by
  simp only [addMember, accept, withSlot, Member.goesBy_iff.2 named, reduceIte]
  cases slot <;> rfl

theorem addMember_of_not_mem (other : m.1 ∉ f.names) :
    (cons f others).addMember (withSlot slot later) m =
      (others.addMember later m).map fun later => withSlot slot later := by
  have notNamed : ¬ f.goesBy m.1 = true := fun named => other (Member.goesBy_iff.1 named)
  simp only [addMember, accept, withSlot, notNamed]
  cases others.accept m.1 later with
  | none => rfl
  | some outcome => cases outcome <;> rfl

/-- The first member takes the values that go by its names; the others never see them. -/
theorem foldlM_addMember_eq_ok_iff {members : List (String × Json)} {slot' : Option α}
    {later' : others.Slots} :
    members.foldlM (cons f others).addMember (withSlot slot later) = .ok (withSlot slot' later') ↔
      f.Takes slot (valuesOf f.names members) slot' ∧
        (without f.names members).foldlM others.addMember later = .ok later' := by
  induction members generalizing slot later with
  | nil =>
    constructor
    · intro same
      obtain ⟨rfl, rfl⟩ := withSlot_inj.1 (Except.ok.inj same)
      exact ⟨.nothing, rfl⟩
    · rintro ⟨takes, same⟩
      cases takes
      cases same
      rfl
  | cons m members ih =>
    rw [List.foldlM_cons]
    by_cases named : m.1 ∈ f.names
    · rw [addMember_of_mem named, valuesOf_cons_of_mem named, without_cons_of_mem named]
      cases slot with
      | some a => simp [Member.takes_some_iff]
      | none =>
        simp only [bind_eq_ok_iff, map_eq_ok_iff, Member.takes_none_cons_iff]
        constructor
        · rintro ⟨_, ⟨a, decoded, rfl⟩, folded⟩
          obtain ⟨takes, rest⟩ := ih.1 folded
          obtain ⟨noMore, rfl⟩ := Member.takes_some_iff.1 takes
          exact ⟨⟨a, decoded, noMore, rfl⟩, rest⟩
        · rintro ⟨⟨a, decoded, noMore, rfl⟩, rest⟩
          exact ⟨_, ⟨a, decoded, rfl⟩, ih.2 ⟨Member.takes_some_iff.2 ⟨noMore, rfl⟩, rest⟩⟩
    · rw [addMember_of_not_mem named, valuesOf_cons_of_not_mem named,
        without_cons_of_not_mem named, List.foldlM_cons]
      simp only [bind_eq_ok_iff, map_eq_ok_iff]
      constructor
      · rintro ⟨_, ⟨next, added, rfl⟩, rest⟩
        obtain ⟨takes, rest⟩ := ih.1 rest
        exact ⟨takes, next, added, rest⟩
      · rintro ⟨takes, next, added, rest⟩
        exact ⟨_, ⟨next, added, rfl⟩, ih.2 ⟨takes, rest⟩⟩

end

variable {α : Type} {r : Record α}

/-- A record knows the names of its members and no others. -/
theorem accept_eq_none_iff {name : String} {slots : r.Slots} :
    r.accept name slots = none ↔ name ∉ r.names := by
  induction r with
  | nil => simp [accept, names]
  | @cons α β f others ih =>
    obtain ⟨slot, later, rfl⟩ := exists_withSlot slots
    by_cases named : name ∈ f.names
    · cases slot <;> simp [accept, names, withSlot, Member.goesBy_iff, named]
    · have notNamed : f.goesBy name = false := by
        rwa [← Bool.not_eq_true, Member.goesBy_iff]
      simp [accept, names, withSlot, named, notNamed, ih]

theorem nesting_of_accept (scalars : r.TakesScalars) {name : String} {slots next : r.Slots}
    {put : Json → Except ShapeError r.Slots} {j : Json}
    (accepted : r.accept name slots = some (.ok put)) (decoded : put j = .ok next) :
    j.nesting = 0 := by
  induction r with
  | nil => cases accepted
  | @cons α β f others ih =>
    obtain ⟨slot, later, rfl⟩ := exists_withSlot slots
    simp only [accept, withSlot] at accepted
    split at accepted
    next named =>
      cases slot with
      | some a => cases accepted
      | none =>
        cases accepted
        obtain ⟨a, decoded, -⟩ := map_eq_ok_iff.1 decoded
        exact scalars.1 j a decoded
    next notNamed =>
      obtain ⟨outcome, fromOthers, same⟩ := Option.map_eq_some_iff.1 accepted
      obtain ⟨put', rfl, rfl⟩ := map_eq_ok_iff.1 same
      obtain ⟨_, decoded, -⟩ := map_eq_ok_iff.1 decoded
      exact ih scalars.2 fromOthers decoded

/-- The slots that members lead to, settled in the end. -/
theorem exists_slots_iff_fits {members : List (String × Json)} {a : α} :
    (∃ slots, members.foldlM r.addMember r.empty = .ok slots ∧ r.finish slots = .ok a) ↔
      r.Fits members a := by
  induction r generalizing members with
  | nil =>
    simp only [Fits, iff_true]
    induction members with
    | nil => exact ⟨(), rfl, rfl⟩
    | cons m members ih => exact ih
  | @cons α β f others ih =>
    obtain ⟨a, b⟩ := a
    simp only [Fits, Member.given_iff, ← ih]
    constructor
    · rintro ⟨slots, folded, finished⟩
      obtain ⟨slot, later, rfl⟩ := exists_withSlot slots
      obtain ⟨takes, folded⟩ := foldlM_addMember_eq_ok_iff.1 folded
      obtain ⟨settled, finished⟩ := finish_withSlot.1 finished
      exact ⟨⟨slot, takes, settled⟩, later, folded, finished⟩
    · rintro ⟨⟨slot, takes, settled⟩, later, folded, finished⟩
      exact ⟨withSlot slot later, foldlM_addMember_eq_ok_iff.2 ⟨takes, folded⟩,
        finish_withSlot.2 ⟨settled, finished⟩⟩

theorem ofMembers_eq_ok_iff {members : List (String × Json)} {a : α} :
    r.ofMembers members = .ok a ↔ r.Fits members a := by
  rw [← exists_slots_iff_fits, ofMembers, bind_eq_ok_iff]

theorem fill_eq_ok_iff (short : ShapeError) {items : List Json} {a : α} :
    r.fill short items = .ok (a, []) ↔ r.Fills items a := by
  induction r generalizing items with
  | nil =>
    simp only [fill, Fills, Except.ok.injEq, Prod.mk.injEq, true_and]
  | @cons α β f others ih =>
    obtain ⟨a, b⟩ := a
    cases items with
    | nil =>
      simp only [fill, Fills, ← ih]
      cases f.unfilled with
      | none => simp
      | some a' =>
        simp only [map_eq_ok_iff, Prod.exists, Prod.mk.injEq, Option.some.injEq]
        constructor
        · rintro ⟨b', _, filled, ⟨rfl, rfl⟩, rfl⟩
          exact ⟨rfl, filled⟩
        · rintro ⟨rfl, filled⟩
          exact ⟨b, [], filled, ⟨rfl, rfl⟩, rfl⟩
    | cons j items =>
      simp only [fill, Fills, ← ih, bind_eq_ok_iff, Prod.exists]
      constructor
      · rintro ⟨a', decoded, b', _, filled, same⟩
        cases same
        exact ⟨decoded, filled⟩
      · rintro ⟨decoded, filled⟩
        exact ⟨a, decoded, b, [], filled, rfl⟩

theorem ofItems_eq_ok_iff {title : String} {items : List Json} {a : α} :
    r.ofItems title items = .ok a ↔ r.Fills items a := by
  rw [← fill_eq_ok_iff (r.tooShort title items.length)]
  unfold ofItems
  cases r.fill (r.tooShort title items.length) items with
  | error e => simp
  | ok filled =>
    obtain ⟨a', rest⟩ := filled
    cases rest <;> simp

end Record

end RecipeEngine.Decode
