import RecipeEngine.Proofs.Json.Basic

/-!
# Canonical values

The canonical form of a value is canonical (`Json.canonical_canonical`), a canonical value is its
own canonical form (`Json.canonical_eq`), and the canonical form is not nested deeper than the
value (`Json.nesting_canonical_le`).
-/

namespace RecipeEngine.Json

open Text

/-! ## Parts -/

theorem canonicalItems_eq_map (items : List Json) : canonicalItems items = items.map canonical := by
  induction items with
  | nil => rfl
  | cons j rest ih => rw [canonicalItems, ih, List.map_cons]

theorem canonicalItems_iff {items : List Json} :
    CanonicalItems items ↔ ∀ j ∈ items, j.Canonical := by
  induction items with
  | nil => simp [CanonicalItems]
  | cons j rest ih => simp [CanonicalItems, ih]

theorem canonicalMembers_iff {members : List (String × Json)} :
    CanonicalMembers members ↔ ∀ m ∈ members, m.2.Canonical := by
  induction members with
  | nil => simp [CanonicalMembers]
  | cons m rest ih => simp [CanonicalMembers, ih]

/-- The canonical members are the canonical forms of members. -/
theorem exists_of_mem_canonicalMembers {members : List (String × Json)} {m : String × Json}
    (member : m ∈ canonicalMembers members) : ∃ m' ∈ members, m.2 = m'.2.canonical := by
  induction members with
  | nil => cases member
  | cons first rest ih =>
    rw [canonicalMembers] at member
    obtain rfl | later : m = (first.1, first.2.canonical) ∨ m ∈ canonicalMembers rest := by
      -- What stands under the name already stays.
      obtain new | kept | ⟨old, stood, rfl⟩ := Entries.mem_insertWith member
      · exact .inl new
      · exact .inr kept
      · exact .inr stood
    · exact ⟨first, List.mem_cons_self .., rfl⟩
    · obtain ⟨m', member', same⟩ := ih later
      exact ⟨m', List.mem_cons_of_mem _ member', same⟩

theorem sorted_canonicalMembers (members : List (String × Json)) :
    Entries.Sorted (canonicalMembers members) := by
  induction members with
  | nil => exact .nil
  | cons m rest ih =>
    rw [canonicalMembers]
    exact Entries.sorted_insertWith ih

/-! ## Values -/

theorem canonical_canonical (j : Json) : j.canonical.Canonical := by
  induction j using Json.inductionOn with
  | null => trivial
  | boolean => trivial
  | number => trivial
  | string => trivial
  | array items ih =>
    rw [canonical, Canonical, canonicalItems_eq_map, canonicalItems_iff, List.forall_mem_map]
    exact ih
  | object members ih =>
    rw [canonical, Canonical, canonicalMembers_iff]
    refine ⟨sorted_canonicalMembers members, fun m member => ?_⟩
    obtain ⟨m', member', same⟩ := exists_of_mem_canonicalMembers member
    rw [same]
    exact ih m' member'

/-- Members that are sorted and canonical stay as they are. -/
theorem canonicalMembers_eq {members : List (String × Json)} (sorted : Entries.Sorted members)
    (same : ∀ m ∈ members, m.2.canonical = m.2) : canonicalMembers members = members := by
  induction members with
  | nil => rfl
  | cons m rest ih =>
    obtain ⟨before, sorted'⟩ := List.pairwise_cons.1 sorted
    obtain ⟨here, later⟩ := List.forall_mem_cons.1 same
    rw [canonicalMembers, ih sorted' later, here]
    cases rest with
    | nil => rfl
    | cons next rest => exact if_pos (before next (List.mem_cons_self ..))

theorem canonical_eq {j : Json} (isCanonical : j.Canonical) : j.canonical = j := by
  induction j using Json.inductionOn with
  | null => rfl
  | boolean => rfl
  | number => rfl
  | string => rfl
  | array items ih =>
    rw [Canonical, canonicalItems_iff] at isCanonical
    rw [canonical, canonicalItems_eq_map,
      List.map_congr_left fun j member => ih j member (isCanonical j member), List.map_id']
  | object members ih =>
    rw [Canonical, canonicalMembers_iff] at isCanonical
    rw [canonical, canonicalMembers_eq isCanonical.1
      fun m member => ih m member (isCanonical.2 m member)]

theorem nesting_canonical_le (j : Json) : j.canonical.nesting ≤ j.nesting := by
  induction j using Json.inductionOn with
  | null => exact Nat.le_refl _
  | boolean => exact Nat.le_refl _
  | number => exact Nat.le_refl _
  | string => exact Nat.le_refl _
  | array items ih =>
    rw [canonical, canonicalItems_eq_map, nesting, nesting, Nat.succ_le_succ_iff,
      nestingItems_le_iff, List.forall_mem_map]
    intro j member
    exact Nat.le_trans (ih j member) (nestingItems_le_iff.1 (Nat.le_refl _) j member)
  | object members ih =>
    rw [canonical, nesting, nesting, Nat.succ_le_succ_iff, nestingMembers_le_iff]
    intro m member
    obtain ⟨m', member', same⟩ := exists_of_mem_canonicalMembers member
    rw [same]
    exact Nat.le_trans (ih m' member') (nestingMembers_le_iff.1 (Nat.le_refl _) m' member')

end RecipeEngine.Json
