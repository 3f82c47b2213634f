import RecipeEngine.Function.Builtin
import RecipeEngine.Text.Quoted

/-!
# The function registry

The entries are kept sorted by key, so that listing the keys lists them in order.
-/

namespace RecipeEngine

open Text

structure Registry where
  entries : List (String × Function)
  sorted : Entries.Sorted entries
  isReady : Bool

namespace Registry

def empty : Registry := ⟨[], List.Pairwise.nil, false⟩

def register (r : Registry) (key : String) (f : Function) : Registry :=
  { r with
    entries := Entries.insert key f r.entries
    sorted := Entries.sorted_insertWith r.sorted }

def registerRaw (r : Registry) (key : String) (f : Json → Json) : Registry :=
  r.register key (Function.ofRaw f)

def lookup (r : Registry) (key : String) : Option Function := Entries.find? key r.entries

def has (r : Registry) (key : String) : Bool := (r.lookup key).isSome

def keys (r : Registry) : List String := Entries.keys r.entries

def size (r : Registry) : Nat := r.entries.length

def isEmpty (r : Registry) : Bool := r.entries.isEmpty

def markReady (r : Registry) : Registry := { r with isReady := true }

def isUsable (r : Registry) : Bool := r.isReady && !r.isEmpty

def describe (r : Registry) : String :=
  "FunctionRegistry \x7b functions: " ++ quotedList r.keys ++ ", ready: " ++
    (if r.isReady then "true" else "false") ++ " \x7d"

def builtin : Registry :=
  (empty.register Builtin.encodeKey Builtin.encodeText).register
    Builtin.decodeKey Builtin.decodeText

end Registry

end RecipeEngine
