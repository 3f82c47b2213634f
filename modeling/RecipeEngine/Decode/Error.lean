import RecipeEngine.Json.Render
import RecipeEngine.Text.Place
import RecipeEngine.Text.Quoted
import RecipeEngine.Timestamp.Read

/-!
# What can be wrong with an encoded value

A text may not be JSON at all, or a JSON value may not have the shape that is wanted.
-/

namespace RecipeEngine.Decode

open Text

/-! ## Texts that are not JSON -/

inductive SyntaxError where
  | valueEnds
  | arrayEnds
  | objectEnds
  | stringEnds
  | noValue
  | noKeyword
  | noColon
  | noCommaOrBracket
  | noCommaOrBrace
  | commaBeforeEnd
  | textGoesOn
  | nameNotString
  | badNumber
  | numberTooLarge
  | controlCharacter
  | badEscape
  | loneSurrogate
  | escapeEnds
  | nestedTooDeep
  deriving DecidableEq

namespace SyntaxError

def message : SyntaxError → String
  | .valueEnds => "EOF while parsing a value"
  | .arrayEnds => "EOF while parsing a list"
  | .objectEnds => "EOF while parsing an object"
  | .stringEnds => "EOF while parsing a string"
  | .noValue => "expected value"
  | .noKeyword => "expected ident"
  | .noColon => "expected `:`"
  | .noCommaOrBracket => "expected `,` or `]`"
  | .noCommaOrBrace => "expected `,` or `\x7d`"
  | .commaBeforeEnd => "trailing comma"
  | .textGoesOn => "trailing characters"
  | .nameNotString => "key must be a string"
  | .badNumber => "invalid number"
  | .numberTooLarge => "number out of range"
  | .controlCharacter => "control character (\\u0000-\\u001F) found while parsing a string"
  | .badEscape => "invalid escape"
  | .loneSurrogate => "lone leading surrogate in hex escape"
  | .escapeEnds => "unexpected end of hex escape"
  | .nestedTooDeep => "recursion limit exceeded"

end SyntaxError

/-! ## Values of another shape -/

/-- What stands where something else is wanted. -/
inductive Found where
  | null
  | boolean (b : Bool)
  | number (n : JsonNumber)
  | string (s : String)
  | array
  | object
  deriving DecidableEq

namespace Found

def ofJson : Json → Found
  | .null => .null
  | .boolean b => .boolean b
  | .number n => .number n
  | .string s => .string s
  | .array _ => .array
  | .object _ => .object

def phrase : Found → String
  | .null => "null"
  | .boolean true => "boolean `true`"
  | .boolean false => "boolean `false`"
  | .number (.integer n) => "integer `" ++ String.ofList (renderInt n.value) ++ "`"
  | .number (.floating x) => "floating point `" ++ String.ofList x.numeral ++ "`"
  | .string s => "string " ++ quoted s
  | .array => "sequence"
  | .object => "map"

end Found

inductive ShapeError where
  | wrongKind (found : Found) (wanted : String)
  | wrongInteger (n : Int) (wanted : String)
  | wrongLength (given : Nat) (wanted : String)
  | unknownVariant (name : String) (known : List String)
  | missingMember (name : String)
  | repeatedMember (name : String)
  | noTimestamp (cause : Timestamp.ReadError)
  deriving DecidableEq

namespace ShapeError

def message : ShapeError → String
  | .wrongKind found wanted => "invalid type: " ++ found.phrase ++ ", expected " ++ wanted
  | .wrongInteger n wanted =>
      "invalid value: integer `" ++ String.ofList (renderInt n) ++ "`, expected " ++ wanted
  | .wrongLength given wanted =>
      "invalid length " ++ toString given ++ ", expected " ++ wanted
  | .unknownVariant name known =>
      "unknown variant `" ++ name ++ "`, expected one of " ++
        ", ".intercalate (known.map fun k => "`" ++ k ++ "`")
  | .missingMember name => "missing field `" ++ name ++ "`"
  | .repeatedMember name => "duplicate field `" ++ name ++ "`"
  | .noTimestamp cause => cause.message

end ShapeError

def elements : Nat → String
  | 1 => "1 element"
  | n => toString n ++ " elements"

/-! ## Faults -/

inductive Cause where
  | syntaxError (e : SyntaxError)
  | shapeError (e : ShapeError)
  deriving DecidableEq

def Cause.message : Cause → String
  | .syntaxError e => e.message
  | .shapeError e => e.message

/-- A failed reading.  A fault of the text itself has a place at once.  A fault in the shape of
what was read is at first only known to have come up at some point of the text; the container
around it gives it a place. -/
inductive Fault where
  | placed (cause : Cause) (place : Place)
  | unplaced (cause : ShapeError) (unread : List Char)

abbrev Reader (α : Type) := List Char → Except Fault (α × List Char)

/-- A fault of the text right before what is unread. -/
def failAt {α : Type} (e : SyntaxError) (unread : List Char) : Except Fault α :=
  .error (.placed (.syntaxError e) (.before unread))

/-- A fault of the text at the next character, which is counted as seen. -/
def failPeeking {α : Type} (e : SyntaxError) (unread : List Char) : Except Fault α :=
  .error (.placed (.syntaxError e) (.peeked unread))

def failShape {α : Type} (e : ShapeError) (unread : List Char) : Except Fault α :=
  .error (.placed (.shapeError e) (.before unread))

def failUnplaced {α : Type} (e : ShapeError) (unread : List Char) : Except Fault α :=
  .error (.unplaced e unread)

end RecipeEngine.Decode
