import RecipeEngine.Decode.Record

/-!
# Tagged values

A text is read in two steps: first all of it as JSON with only the tag looked at; then the variant
is decoded from what was kept.  A fault of the second step has no place of its own.
-/

namespace RecipeEngine.Decode

/-- What a tagged value holds besides its tag. -/
inductive Content where
  | members (members : List (String × Json))
  | items (items : List Json)

abbrev ContentDecoder (α : Type) := Content → Except ShapeError α

def Record.ofContent {α : Type} (r : Record α) (title : String) : ContentDecoder α
  | .members members => r.ofMembers members
  | .items items => r.ofItems title items

/-- Decodes a variant without members of its own: any members are ignored, but there must be no
items. -/
def decodeBare {α : Type} (a : α) : ContentDecoder α
  | .members _ => .ok a
  | .items [] => .ok a
  | .items (_ :: rest) => .error (.wrongLength (rest.length + 1) (elements 0 ++ " in sequence"))

structure Variant (α : Type) where
  names : List String
  decode : ContentDecoder α

structure Tagged (α : Type) where
  title : String
  variants : List (Variant α)
  otherwise : Option (ContentDecoder α)

namespace Tagged

variable {α : Type}

def tagName : String := "type"

def named (t : Tagged α) (tag : String) : Except ShapeError (ContentDecoder α) :=
  match t.variants.find? (·.names.contains tag) with
  | some variant => .ok variant.decode
  | none =>
      match t.otherwise with
      | some decode => .ok decode
      | none => .error (.unknownVariant tag (t.variants.flatMap (·.names)))

def numbered (t : Tagged α) (place : Nat) : Except ShapeError (ContentDecoder α) :=
  match t.variants[place]? with
  | some variant => .ok variant.decode
  | none =>
      match t.otherwise with
      | some decode => .ok decode
      | none =>
          .error (.wrongInteger place
            ("variant index 0 <= i < " ++ toString t.variants.length))

inductive TagStyle where
  | name
  /-- By name, or by the variant's place as a whole number. -/
  | nameOrPlace
  deriving DecidableEq

def ofTag (t : Tagged α) (style : TagStyle) (tag : Json) : Except ShapeError (ContentDecoder α) :=
  match tag, style with
  | .string name, _ => t.named name
  | .number (.integer n), .nameOrPlace =>
      if 0 ≤ n.value then t.numbered n.value.toNat else wrongKind tag "variant identifier"
  | _, _ => wrongKind tag "variant identifier"

def notTagged {β : Type} (t : Tagged α) (j : Json) : Except ShapeError β :=
  wrongKind j ("internally tagged enum " ++ t.title)

/-! ## Decoding values -/

/-- A tagged value in the making: the decoder that its tag asks for, once it came up, and the
other members, the last one first. -/
structure Gathered (α : Type) where
  decode : Option (ContentDecoder α)
  others : List (String × Json)

def Gathered.finish (g : Gathered α) : Except ShapeError (ContentDecoder α) :=
  match g.decode with
  | some decode => .ok decode
  | none => .error (.missingMember tagName)

def gather (t : Tagged α) (style : TagStyle) (g : Gathered α) (member : String × Json) :
    Except ShapeError (Gathered α) :=
  if member.1 = tagName then
    if g.decode.isSome then .error (.repeatedMember tagName)
    else (t.ofTag style member.2).map fun decode => { g with decode := some decode }
  else .ok { g with others := member :: g.others }

def decode (t : Tagged α) (style : TagStyle) : Decoder α
  | .object members => do
      let g ← members.foldlM (t.gather style) ⟨none, []⟩
      let decode ← g.finish
      decode (.members g.others.reverse)
  | .array [] => .error (.missingMember tagName)
  | .array (tag :: rest) => do
      let decode ← t.ofTag style tag
      decode (.items rest)
  | j => t.notTagged j

/-! ## Reading texts -/

def readTag (t : Tagged α) (budget : Nat) : Reader (ContentDecoder α) :=
  Record.readInto budget (t.ofTag .name)

def readMember (t : Tagged α) (budget levels : Nat) (g : Gathered α) (name : String) :
    Reader (Gathered α) := fun cs =>
  if name = tagName then
    if g.decode.isSome then failUnplaced (.repeatedMember tagName) cs
    else do
      let (_, cs) ← readColon cs
      let (decode, cs) ← t.readTag budget cs
      .ok ({ g with decode := some decode }, cs)
  else do
    let (others, cs) ← gatherMember (readValue budget levels) g.others name cs
    .ok ({ g with others := others }, cs)

def readMembers (t : Tagged α) (budget levels : Nat) : Reader (ContentDecoder α × Content) :=
  fun cs => do
    let (g, cs) ← foldMembers (t.readMember budget levels) budget budget true ⟨none, []⟩ cs
    match g.finish with
    | .ok decode => .ok ((decode, .members g.others.reverse), cs)
    | .error e => failUnplaced e cs

def readItems (t : Tagged α) (budget levels : Nat) : Reader (ContentDecoder α × Content) :=
  fun cs => do
    let (more, cs) ← nextItem true cs
    if more then
      let (decode, cs) ← t.readTag budget cs
      let (items, cs) ← Decode.readItems (readValue budget levels) budget false cs
      .ok ((decode, .items items), cs)
    else failUnplaced (.missingMember tagName) cs

/-- Reads a container around what `body` reads at one level less, if there is a level left. -/
def nested {β : Type} (levels : Nat) (body : Nat → Reader β) : Reader β :=
  match levels with
  | 0 => failPeeking .nestedTooDeep
  | levels + 1 => body levels

def read (t : Tagged α) (budget levels : Nat) : Reader α := fun cs => do
  let ((decode, content), cs) ←
    readByKind budget
      (nested levels fun levels => readArray (t.readItems budget levels))
      (nested levels fun levels => readObject (t.readMembers budget levels))
      t.notTagged cs
  match decode content with
  | .ok a => .ok (a, cs)
  | .error e => failUnplaced e cs

end Tagged

end RecipeEngine.Decode
