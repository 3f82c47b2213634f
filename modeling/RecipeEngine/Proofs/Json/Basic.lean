import RecipeEngine.Json.Basic

/-!
# Going through a JSON value

A statement about every JSON value is proved by going through its containers (`Json.inductionOn`).
What the functions on values do with the items of an array and with the members of an object is
here said of the list as a whole.
-/

namespace RecipeEngine.Json

/-! ## Induction -/

/-- To prove something of every value, prove it of a container from what holds of the values in
it. -/
@[elab_as_elim] theorem inductionOn {motive : Json → Prop} (j : Json) (null : motive .null)
    (boolean : ∀ b, motive (.boolean b)) (number : ∀ n, motive (.number n))
    (string : ∀ s, motive (.string s))
    (array : ∀ items, (∀ j ∈ items, motive j) → motive (.array items))
    (object : ∀ members, (∀ m ∈ members, motive m.2) → motive (.object members)) : motive j := by
  refine @Json.rec motive (fun items => ∀ j ∈ items, motive j)
    (fun members => ∀ m ∈ members, motive m.2) (fun m => motive m.2) null boolean number string
    array object ?_ ?_ ?_ ?_ (fun _ _ => id) j
  · exact List.forall_mem_nil _
  · exact fun _ _ first rest => List.forall_mem_cons.2 ⟨first, rest⟩
  · exact List.forall_mem_nil _
  · exact fun _ _ first rest => List.forall_mem_cons.2 ⟨first, rest⟩

/-! ## Nesting -/

theorem nestingItems_le_iff {items : List Json} {levels : Nat} :
    nestingItems items ≤ levels ↔ ∀ j ∈ items, j.nesting ≤ levels := by
  induction items with
  | nil => simp [nestingItems]
  | cons j rest ih => rw [nestingItems, Nat.max_le, ih, List.forall_mem_cons]

theorem nestingMembers_le_iff {members : List (String × Json)} {levels : Nat} :
    nestingMembers members ≤ levels ↔ ∀ m ∈ members, m.2.nesting ≤ levels := by
  induction members with
  | nil => simp [nestingMembers]
  | cons m rest ih => rw [nestingMembers, Nat.max_le, ih, List.forall_mem_cons]

theorem nesting_array_le_succ {items : List Json} {levels : Nat} :
    (array items).nesting ≤ levels + 1 ↔ ∀ j ∈ items, j.nesting ≤ levels := by
  rw [nesting, Nat.succ_le_succ_iff, nestingItems_le_iff]

theorem nesting_object_le_succ {members : List (String × Json)} {levels : Nat} :
    (object members).nesting ≤ levels + 1 ↔ ∀ m ∈ members, m.2.nesting ≤ levels := by
  rw [nesting, Nat.succ_le_succ_iff, nestingMembers_le_iff]

/-! ## Members by name -/

/-- The values of the members that go by one of the names, in written order. -/
def valuesOf (names : List String) (members : List (String × Json)) : List Json :=
  (members.filter fun m => names.contains m.1).map Prod.snd

/-- The members that go by none of the names. -/
def without (names : List String) (members : List (String × Json)) : List (String × Json) :=
  members.filter fun m => !names.contains m.1

section

variable {names : List String} {m : String × Json} {members : List (String × Json)}

@[simp] theorem valuesOf_nil : valuesOf names [] = [] := rfl

@[simp] theorem without_nil : without names [] = [] := rfl

theorem valuesOf_cons_of_mem (named : m.1 ∈ names) :
    valuesOf names (m :: members) = m.2 :: valuesOf names members := by
  simp [valuesOf, named]

theorem valuesOf_cons_of_not_mem (other : m.1 ∉ names) :
    valuesOf names (m :: members) = valuesOf names members := by
  simp [valuesOf, other]

theorem without_cons_of_mem (named : m.1 ∈ names) :
    without names (m :: members) = without names members := by
  simp [without, named]

theorem without_cons_of_not_mem (other : m.1 ∉ names) :
    without names (m :: members) = m :: without names members := by
  simp [without, other]

theorem valuesOf_eq_nil (apart : ∀ m ∈ members, m.1 ∉ names) : valuesOf names members = [] := by
  rw [valuesOf, List.map_eq_nil_iff, List.filter_eq_nil_iff]
  simpa using apart

theorem without_eq_self (apart : ∀ m ∈ members, m.1 ∉ names) : without names members = members := by
  rw [without, List.filter_eq_self]
  simpa using apart

theorem lookup_eq_head? {name : String} :
    members.lookup name = (valuesOf [name] members).head? := by
  induction members with
  | nil => rfl
  | cons m members ih =>
    obtain ⟨name', j⟩ := m
    by_cases same : name' = name
    · have named : (name', j).1 ∈ [name] := List.mem_singleton.2 same
      rw [valuesOf_cons_of_mem named, same, List.lookup_cons_self, List.head?_cons]
    · have other : (name == name') = false := beq_false_of_ne (Ne.symm same)
      have notNamed : (name', j).1 ∉ [name] := fun named => same (List.mem_singleton.1 named)
      rw [List.lookup_cons, other, valuesOf_cons_of_not_mem notNamed, ih]

/-- The last member with a name is the one that is found. -/
theorem member?_object {name : String} :
    (object members).member? name = (valuesOf [name] members).getLast? := by
  rw [member?, lookup_eq_head?, valuesOf, List.filter_reverse, List.map_reverse,
    List.head?_reverse, valuesOf]

/-- Leaving out members by other names makes no difference. -/
theorem valuesOf_without {others : List String} (apart : ∀ name ∈ names, name ∉ others) :
    valuesOf names (without others members) = valuesOf names members := by
  rw [valuesOf, valuesOf, without, List.filter_filter]
  congr 1
  refine List.filter_congr fun m _ => ?_
  by_cases named : m.1 ∈ names
  · simp [named, apart _ named]
  · simp [named]

end

end RecipeEngine.Json
