import RecipeEngine.Proofs.Json.Canonical
import RecipeEngine.Proofs.Number.Shortest

/-!
# Values after reading back

Reading back what is written of a value gives the same value, except that each binary64 number in
it has become what its numeral is read as (`Json.reread`).  So it is the same value if all of these
numbers read back as themselves (`Json.reread_eq_self`), and in any case it has the same shape: it
is nested as deep and is as canonical as before.
-/

namespace RecipeEngine

open Number

def JsonNumber.reread : JsonNumber → JsonNumber
  | .integer n => .integer n
  | .floating x => .floating x.reread

namespace Json

mutual

def reread : Json → Json
  | .number n => .number n.reread
  | .array items => .array (rereadItems items)
  | .object members => .object (rereadMembers members)
  | j => j

def rereadItems : List Json → List Json
  | [] => []
  | j :: rest => reread j :: rereadItems rest

def rereadMembers : List (String × Json) → List (String × Json)
  | [] => []
  | (name, j) :: rest => (name, reread j) :: rereadMembers rest

end

mutual

/-- The binary64 numbers in a value. -/
def floats : Json → List Binary64
  | .number (.floating x) => [x]
  | .array items => floatsOfItems items
  | .object members => floatsOfMembers members
  | _ => []

def floatsOfItems : List Json → List Binary64
  | [] => []
  | j :: rest => floats j ++ floatsOfItems rest

def floatsOfMembers : List (String × Json) → List Binary64
  | [] => []
  | (_, j) :: rest => floats j ++ floatsOfMembers rest

end

/-! ## Parts -/

theorem rereadItems_eq_map (items : List Json) : rereadItems items = items.map reread := by
  induction items with
  | nil => rfl
  | cons j rest ih => rw [rereadItems, ih, List.map_cons]

theorem rereadMembers_eq_map (members : List (String × Json)) :
    rereadMembers members = members.map fun m => (m.1, m.2.reread) := by
  induction members with
  | nil => rfl
  | cons m rest ih => rw [rereadMembers, ih, List.map_cons]

theorem floatsOfItems_eq_flatMap (items : List Json) :
    floatsOfItems items = items.flatMap floats := by
  induction items with
  | nil => rfl
  | cons j rest ih => rw [floatsOfItems, ih, List.flatMap_cons]

theorem floatsOfMembers_eq_flatMap (members : List (String × Json)) :
    floatsOfMembers members = members.flatMap fun m => m.2.floats := by
  induction members with
  | nil => rfl
  | cons m rest ih => rw [floatsOfMembers, ih, List.flatMap_cons]

/-! ## What is kept -/

/-- A value is read back as itself if the binary64 numbers in it are. -/
theorem reread_eq_self {j : Json} (same : ∀ x ∈ j.floats, x.reread = x) : j.reread = j := by
  induction j using Json.inductionOn with
  | null => rfl
  | boolean => rfl
  | number n =>
    cases n with
    | integer => rfl
    | floating x => rw [reread, JsonNumber.reread, same x (List.mem_singleton_self x)]
  | string => rfl
  | array items ih =>
    rw [floats, floatsOfItems_eq_flatMap] at same
    have kept : ∀ j ∈ items, j.reread = j := fun j member =>
      ih j member fun x isFloat => same x (List.mem_flatMap.2 ⟨j, member, isFloat⟩)
    rw [reread, rereadItems_eq_map, List.map_congr_left kept, List.map_id']
  | object members ih =>
    rw [floats, floatsOfMembers_eq_flatMap] at same
    have kept : ∀ m ∈ members, (m.1, m.2.reread) = m := fun m member =>
      Prod.ext rfl (ih m member fun x isFloat => same x (List.mem_flatMap.2 ⟨m, member, isFloat⟩))
    rw [reread, rereadMembers_eq_map, List.map_congr_left kept, List.map_id']

theorem nesting_reread (j : Json) : j.reread.nesting = j.nesting := by
  induction j using Json.inductionOn with
  | null => rfl
  | boolean => rfl
  | number => rfl
  | string => rfl
  | array items ih =>
    have same (levels : Nat) : nestingItems (items.map reread) ≤ levels ↔
        nestingItems items ≤ levels := by
      rw [nestingItems_le_iff, nestingItems_le_iff, List.forall_mem_map]
      exact forall₂_congr fun j member => by rw [ih j member]
    rw [reread, rereadItems_eq_map, nesting, nesting, eq_of_forall_ge_iff same]
  | object members ih =>
    have same (levels : Nat) : nestingMembers (members.map fun m => (m.1, m.2.reread)) ≤ levels ↔
        nestingMembers members ≤ levels := by
      rw [nestingMembers_le_iff, nestingMembers_le_iff, List.forall_mem_map]
      exact forall₂_congr fun m member => by rw [ih m member]
    rw [reread, rereadMembers_eq_map, nesting, nesting, eq_of_forall_ge_iff same]

theorem canonical_reread {j : Json} (canonical : j.Canonical) : j.reread.Canonical := by
  induction j using Json.inductionOn with
  | null => trivial
  | boolean => trivial
  | number => trivial
  | string => trivial
  | array items ih =>
    rw [Canonical, canonicalItems_iff] at canonical
    rw [reread, rereadItems_eq_map, Canonical, canonicalItems_iff, List.forall_mem_map]
    exact fun j member => ih j member (canonical j member)
  | object members ih =>
    obtain ⟨sorted, canonical⟩ := canonical
    rw [canonicalMembers_iff] at canonical
    rw [reread, rereadMembers_eq_map, Canonical, canonicalMembers_iff, List.forall_mem_map]
    exact ⟨List.pairwise_map.2 sorted, fun m member => ih m member (canonical m member)⟩

end Json

end RecipeEngine
