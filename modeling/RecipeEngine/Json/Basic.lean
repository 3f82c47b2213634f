import RecipeEngine.Number.Binary64
import RecipeEngine.Text.Entries

/-!
# JSON values

`Json` keeps what a text says: the members of an object stand in written order and a name may
occur more than once.  A value that is *computed with* is canonical: its members are sorted by
name, and of several members with one name the last has won.

The numbers `1` and `1.0` are different values.
-/

namespace RecipeEngine

/-- A whole number that fits 64 bits, with a sign or without: from `-2 ^ 63` up to but not
including `2 ^ 64`. -/
structure Integer where
  value : Int
  low : -0x8000000000000000 ≤ value
  high : value < 0x10000000000000000
  deriving DecidableEq

namespace Integer

def ofInt? (n : Int) : Option Integer :=
  if fits : -0x8000000000000000 ≤ n ∧ n < 0x10000000000000000 then
    some ⟨n, fits.1, fits.2⟩
  else
    none

theorem ofInt?_value (n : Integer) : ofInt? n.value = some n :=
  dif_pos ⟨n.low, n.high⟩

end Integer

inductive JsonNumber where
  | integer (n : Integer)
  /-- A number that is written with a point or an exponent, or is too large to be kept whole. -/
  | floating (x : Number.Binary64)
  deriving DecidableEq

inductive Json where
  | null
  | boolean (b : Bool)
  | number (n : JsonNumber)
  | string (s : String)
  | array (items : List Json)
  /-- The members in written order, repeated names included. -/
  | object (members : List (String × Json))

namespace Json

open Text

instance : Inhabited Json := ⟨.null⟩

/-! ## Equality -/

mutual

def same : Json → Json → Bool
  | .null, .null => true
  | .boolean a, .boolean b => a == b
  | .number a, .number b => a == b
  | .string a, .string b => a == b
  | .array a, .array b => sameItems a b
  | .object a, .object b => sameMembers a b
  | _, _ => false

def sameItems : List Json → List Json → Bool
  | [], [] => true
  | a :: as, b :: bs => same a b && sameItems as bs
  | _, _ => false

def sameMembers : List (String × Json) → List (String × Json) → Bool
  | [], [] => true
  | (k, a) :: as, (l, b) :: bs => k == l && same a b && sameMembers as bs
  | _, _ => false

end

mutual

theorem same_iff : ∀ a b : Json, same a b = true ↔ a = b
  | .null, b => by cases b <;> simp [same]
  | .boolean _, b => by cases b <;> simp [same]
  | .number _, b => by cases b <;> simp [same]
  | .string _, b => by cases b <;> simp [same]
  | .array as, b => by cases b <;> simp [same, sameItems_iff as]
  | .object as, b => by cases b <;> simp [same, sameMembers_iff as]

theorem sameItems_iff : ∀ as bs : List Json, sameItems as bs = true ↔ as = bs
  | [], bs => by cases bs <;> simp [sameItems]
  | a :: as, bs => by cases bs <;> simp [sameItems, same_iff a, sameItems_iff as]

theorem sameMembers_iff : ∀ as bs : List (String × Json), sameMembers as bs = true ↔ as = bs
  | [], bs => by cases bs <;> simp [sameMembers]
  | (_, a) :: as, bs => by
      cases bs with
      | nil => simp [sameMembers]
      | cons b bs => simp [sameMembers, same_iff a, sameMembers_iff as, Prod.ext_iff]

end

instance : DecidableEq Json := fun a b => decidable_of_iff _ (same_iff a b)

/-! ## Canonical values -/

mutual

/-- The same value with the members of every object sorted by name and, of members with one
name, only the last. -/
def canonical : Json → Json
  | .array items => .array (canonicalItems items)
  | .object members => .object (canonicalMembers members)
  | j => j

def canonicalItems : List Json → List Json
  | [] => []
  | j :: rest => canonical j :: canonicalItems rest

def canonicalMembers : List (String × Json) → List (String × Json)
  | [] => []
  -- The rest goes first: a later member of the same name is then already there.
  | (name, j) :: rest => Entries.insertNew name (canonical j) (canonicalMembers rest)

end

mutual

def Canonical : Json → Prop
  | .array items => CanonicalItems items
  | .object members => Entries.Sorted members ∧ CanonicalMembers members
  | _ => True

def CanonicalItems : List Json → Prop
  | [] => True
  | j :: rest => Canonical j ∧ CanonicalItems rest

def CanonicalMembers : List (String × Json) → Prop
  | [] => True
  | (_, j) :: rest => Canonical j ∧ CanonicalMembers rest

end

/-! ## Nesting -/

mutual

/-- How many containers lie inside one another; a scalar has none. -/
def nesting : Json → Nat
  | .array items => nestingItems items + 1
  | .object members => nestingMembers members + 1
  | _ => 0

def nestingItems : List Json → Nat
  | [] => 0
  | j :: rest => max (nesting j) (nestingItems rest)

def nestingMembers : List (String × Json) → Nat
  | [] => 0
  | (_, j) :: rest => max (nesting j) (nestingMembers rest)

end

/-! ## Making values -/

def ofCount (n : UInt32) : Json :=
  .number (.integer ⟨n.toNat, by have := n.toNat_lt; omega, by have := n.toNat_lt; omega⟩)

def ofTexts (texts : List String) : Json := .array (texts.map .string)

def ofTextOrNull : Option String → Json
  | some s => .string s
  | none => .null

/-- A whole number as a JSON value, a binary64 number where it does not fit 64 bits. -/
def ofInt? (n : Int) : Option Json :=
  match Integer.ofInt? n with
  | some i => some (.number (.integer i))
  | none => (Number.Binary64.ofInt? n).map fun x => .number (.floating x)

/-! ## Looking inside -/

def text? : Json → Option String
  | .string s => some s
  | _ => none

/-- The last member of an object with the given name. -/
def member? (name : String) : Json → Option Json
  | .object members => members.reverse.lookup name
  | _ => none

/-- Of two members with one name the last wins, and names are sorted. -/
example : canonical (.object [("b", .null), ("a", .null), ("b", .boolean true)]) =
    .object [("a", .null), ("b", .boolean true)] := by decide +kernel

end Json

end RecipeEngine
