/-!
# Entries sorted by key

Lists of keyed entries in strictly increasing key order, so that a key occurs at most once.
Strings are ordered by code point, which is also the order of their UTF-8 octets.
-/

namespace RecipeEngine.Text.Entries

variable {α : Type}

def Sorted (entries : List (String × α)) : Prop := entries.Pairwise fun a b => a.1 < b.1

def keys (entries : List (String × α)) : List String := entries.map (·.1)

def find? (key : String) (entries : List (String × α)) : Option α := entries.lookup key

/-- Puts a value under a key, or what `merge` makes of the value that stands there and the new
one. -/
def insertWith (merge : α → α → α) (key : String) (value : α) :
    List (String × α) → List (String × α)
  | [] => [(key, value)]
  | entry :: rest =>
      if key < entry.1 then (key, value) :: entry :: rest
      else if entry.1 < key then entry :: insertWith merge key value rest
      else (entry.1, merge entry.2 value) :: rest

/-- Puts a value under a key, in place of what stood there. -/
def insert (key : String) (value : α) (entries : List (String × α)) : List (String × α) :=
  insertWith (fun _ new => new) key value entries

def insertNew (key : String) (value : α) (entries : List (String × α)) : List (String × α) :=
  insertWith (fun old _ => old) key value entries

/-! ## Finding entries -/

@[simp] theorem find?_nil (key : String) : find? key ([] : List (String × α)) = none := rfl

theorem find?_cons (key : String) (entry : String × α) (rest : List (String × α)) :
    find? key (entry :: rest) = if key = entry.1 then some entry.2 else find? key rest := by
  obtain ⟨name, value⟩ := entry
  by_cases same : key = name
  · simp [find?, same]
  · simp [find?, List.lookup_cons, same, beq_eq_false_iff_ne.2 same]

theorem find?_isSome_iff {key : String} {entries : List (String × α)} :
    (find? key entries).isSome ↔ key ∈ keys entries := by
  induction entries with
  | nil => simp [keys]
  | cons entry rest ih =>
    by_cases same : key = entry.1
    · simp [find?_cons, keys, same]
    · simpa [find?_cons, keys, same] using ih

theorem key_eq_of_not_lt {a b : String} (h : ¬ a < b) (h' : ¬ b < a) : a = b :=
  String.le_antisymm (String.not_lt.1 h') (String.not_lt.1 h)

/-- Insertion changes what is found under its key and nowhere else. -/
theorem find?_insert (key other : String) (value : α) (entries : List (String × α)) :
    find? other (insert key value entries) =
      if other = key then some value else find? other entries := by
  rw [insert]
  induction entries with
  | nil => simp [insertWith, find?_cons]
  | cons entry rest ih =>
    unfold insertWith
    split
    next => simp [find?_cons]
    next notBefore =>
      split
      next after =>
        have different : key ≠ entry.1 := by
          intro same
          rw [same] at after
          exact String.lt_irrefl _ after
        rw [find?_cons, ih, find?_cons]
        by_cases same : other = key <;> simp [same, different]
      next notAfter =>
        have same := key_eq_of_not_lt notBefore notAfter
        by_cases equal : other = entry.1 <;> simp [find?_cons, same, equal]

/-! ## Order -/

variable {merge : α → α → α} {key : String} {value : α} {entries : List (String × α)}

/-- The entries after an insertion are the old ones and one under the key. -/
theorem mem_insertWith {e : String × α} (member : e ∈ insertWith merge key value entries) :
    e = (key, value) ∨ e ∈ entries ∨ ∃ old, (key, old) ∈ entries ∧ e = (key, merge old value) := by
  induction entries with
  | nil => exact .inl (List.mem_singleton.1 member)
  | cons entry rest ih =>
    unfold insertWith at member
    split at member
    next => exact (List.mem_cons.1 member).imp_right .inl
    next notBefore =>
      split at member
      next =>
        obtain rfl | later := List.mem_cons.1 member
        · exact .inr (.inl (List.mem_cons_self ..))
        · obtain new | kept | ⟨old, stood, merged⟩ := ih later
          · exact .inl new
          · exact .inr (.inl (List.mem_cons_of_mem _ kept))
          · exact .inr (.inr ⟨old, List.mem_cons_of_mem _ stood, merged⟩)
      next notAfter =>
        obtain rfl | later := List.mem_cons.1 member
        · have same := key_eq_of_not_lt notBefore notAfter
          subst same
          exact .inr (.inr ⟨entry.2, List.mem_cons_self .., rfl⟩)
        · exact .inr (.inl (List.mem_cons_of_mem _ later))

theorem sorted_insertWith (sorted : Sorted entries) :
    Sorted (insertWith merge key value entries) := by
  induction entries with
  | nil => simp [insertWith, Sorted]
  | cons entry rest ih =>
    obtain ⟨first, later⟩ := List.pairwise_cons.1 sorted
    unfold insertWith
    split
    next before =>
      refine List.pairwise_cons.2 ⟨fun e member => ?_, sorted⟩
      obtain rfl | member := List.mem_cons.1 member
      · exact before
      · exact String.lt_trans before (first e member)
    next =>
      split
      next after =>
        refine List.pairwise_cons.2 ⟨fun e member => ?_, ih later⟩
        obtain rfl | kept | ⟨_, -, rfl⟩ := mem_insertWith member
        · exact after
        · exact first e kept
        · exact after
      next => exact List.pairwise_cons.2 ⟨first, later⟩

end RecipeEngine.Text.Entries
