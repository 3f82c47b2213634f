import RecipeEngine.Decode.Skip

/-!
# Records

A `Record` describes the members that make up a value.  It serves every way of decoding: from the
members of an object, from the items of an array, and straight from a text.
-/

namespace RecipeEngine.Decode

/-! ## Decoding scalars -/

abbrev Decoder (α : Type) := Json → Except ShapeError α

def wrongKind {α : Type} (j : Json) (wanted : String) : Except ShapeError α :=
  .error (.wrongKind (Found.ofJson j) wanted)

def decodeText : Decoder String
  | .string s => .ok s
  | j => wrongKind j "a string"

def decodeCount : Decoder UInt32
  | .number (.integer n) =>
      match n.value with
      | .ofNat k =>
          if k < UInt32.size then .ok (UInt32.ofNat k) else .error (.wrongInteger n.value "u32")
      | .negSucc _ => .error (.wrongInteger n.value "u32")
  | j => wrongKind j "u32"

def decodeFloating : Decoder Number.Binary64
  | .number (.floating x) => .ok x
  | .number (.integer n) =>
      match Number.Binary64.ofInt? n.value with
      | some x => .ok x
      | none => .error (.wrongInteger n.value "f64")
  | j => wrongKind j "f64"

def decodeOptional {α : Type} (decode : Decoder α) : Decoder (Option α)
  | .null => .ok none
  | j => (decode j).map some

def decodeItems {α : Type} (decode : Decoder α) : Decoder (List α)
  | .array items => items.mapM decode
  | j => wrongKind j "a sequence"

def decodeTimestamp : Decoder Timestamp
  | .string s => (Timestamp.read s.toList).mapError .noTimestamp
  | j => wrongKind j "an RFC 3339 formatted date and time string"

def decodeAny : Decoder Json := fun j => .ok j.canonical

/-! ## Descriptions -/

structure Member (α : Type) where
  name : String
  aliases : List String
  decode : Decoder α
  /-- What its absence from an object means, if that is allowed. -/
  absent : Option α
  /-- What it means that an array ends before it, if that is allowed. -/
  unfilled : Option α

def Member.goesBy {α : Type} (f : Member α) (name : String) : Bool :=
  name == f.name || f.aliases.contains name

inductive Record : Type → Type 1 where
  | nil : Record Unit
  | cons {α β : Type} (member : Member α) (others : Record β) : Record (α × β)

namespace Record

def size : {α : Type} → Record α → Nat
  | _, .nil => 0
  | _, .cons _ others => others.size + 1

/-- What has been decoded so far: for each member its value, once it came up. -/
def Slots : {α : Type} → Record α → Type
  | _, .nil => Unit
  | _, @Record.cons α _ _ others => Option α × Slots others

def empty : {α : Type} → (r : Record α) → r.Slots
  | _, .nil => ()
  | _, .cons _ others => (none, others.empty)

/-- What to do with the value of a member: nothing is known about a name that no member goes by,
a member that came up before is refused, and otherwise the value is decoded into its slot. -/
def accept : {α : Type} → (r : Record α) → String → r.Slots →
    Option (Except ShapeError (Json → Except ShapeError r.Slots))
  | _, .nil, _, _ => none
  | _, @Record.cons α _ member others, name, slots =>
      let (slot, later) : Option α × others.Slots := slots
      if member.goesBy name then
        match slot with
        | some _ => some (.error (.repeatedMember member.name))
        | none => some (.ok fun j => (member.decode j).map fun a => (some a, later))
      else
        (others.accept name later).map fun outcome =>
          outcome.map fun put j => (put j).map fun later => (slot, later)

def settle {α : Type} (member : Member α) : Option α → Except ShapeError α
  | some a => .ok a
  | none =>
      match member.absent with
      | some a => .ok a
      | none => .error (.missingMember member.name)

def finish : {α : Type} → (r : Record α) → r.Slots → Except ShapeError α
  | _, .nil, _ => .ok ()
  | _, @Record.cons α _ member others, slots => do
      let (slot, later) : Option α × others.Slots := slots
      let a ← settle member slot
      let b ← others.finish later
      .ok (a, b)

/-! ## Decoding -/

def addMember {α : Type} (r : Record α) (slots : r.Slots) (member : String × Json) :
    Except ShapeError r.Slots :=
  match r.accept member.1 slots with
  | none => .ok slots
  | some (.error e) => .error e
  | some (.ok put) => put member.2

def ofMembers {α : Type} (r : Record α) (members : List (String × Json)) :
    Except ShapeError α := do
  let slots ← members.foldlM r.addMember r.empty
  r.finish slots

/-- Decodes members from the items of an array; gives the items that are left.  `short` is the
fault of an array that ends too early. -/
def fill (short : ShapeError) : {α : Type} → Record α → List Json →
    Except ShapeError (α × List Json)
  | _, .nil, items => .ok ((), items)
  | _, .cons member others, [] =>
      match member.unfilled with
      | some a => (others.fill short []).map fun (b, rest) => ((a, b), rest)
      | none => .error short
  | _, .cons member others, j :: items => do
      let a ← member.decode j
      let (b, rest) ← others.fill short items
      .ok ((a, b), rest)

def tooShort {α : Type} (r : Record α) (title : String) (given : Nat) : ShapeError :=
  .wrongLength given (title ++ " with " ++ elements r.size)

def ofItems {α : Type} (r : Record α) (title : String) (items : List Json) :
    Except ShapeError α := do
  let (a, rest) ← r.fill (r.tooShort title items.length) items
  if rest.isEmpty then .ok a
  else .error (.wrongLength items.length (elements r.size ++ " in sequence"))

/-! ## Reading straight from a text -/

/-- Reads the value of a member and decodes it.  A fault in its shape is placed right after a
scalar and right before a container. -/
def readInto {σ : Type} (budget : Nat) (put : Json → Except ShapeError σ) : Reader σ := fun cs =>
  do
    let (j, cs) ← readShallow budget cs
    match put j with
    | .ok s => .ok (s, cs)
    | .error e => failShape e cs

def readMember {α : Type} (r : Record α) (budget : Nat) (slots : r.Slots) (name : String) :
    Reader r.Slots := fun cs =>
  match r.accept name slots with
  | none => do
      let (_, cs) ← readColon cs
      let (_, cs) ← skipValue budget cs
      .ok (slots, cs)
  | some (.error e) => failUnplaced e cs
  | some (.ok put) => do
      let (_, cs) ← readColon cs
      readInto budget put cs

def readMembers {α : Type} (r : Record α) (budget : Nat) : Reader α := fun cs => do
  let (slots, cs) ← foldMembers (r.readMember budget) budget budget true r.empty cs
  match r.finish slots with
  | .ok a => .ok (a, cs)
  | .error e => failUnplaced e cs

def readFilling (budget : Nat) (short : Nat → ShapeError) : {α : Type} → Record α → Nat → Reader α
  | _, .nil, _ => fun cs => .ok ((), cs)
  | _, .cons member others, read => fun cs => do
      let (more, cs) ← nextItem (read == 0) cs
      if more then
        let (a, cs) ← readInto budget member.decode cs
        let (b, cs) ← others.readFilling budget short (read + 1) cs
        .ok ((a, b), cs)
      else
        match member.unfilled with
        | some a =>
            (others.readFilling budget short (read + 1) cs).map fun (b, cs) => ((a, b), cs)
        | none => failUnplaced (short read) cs

/-- Reads a record of scalars straight from a text, as an object or as an array. -/
def readDirectly {α : Type} (r : Record α) (title : String) (budget : Nat) : Reader α :=
  readByKind budget
    (readArray (r.readFilling budget (r.tooShort title) 0))
    (readObject (r.readMembers budget))
    fun j => wrongKind j title

end Record

end RecipeEngine.Decode
