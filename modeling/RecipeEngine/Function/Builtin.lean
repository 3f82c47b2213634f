import RecipeEngine.Function.Base64
import RecipeEngine.Function.Outcome

/-!
# Built-in functions
-/

namespace RecipeEngine.Builtin

open Text

def encodeKey : String := "encodeBase64"

def decodeKey : String := "decodeBase64"

inductive Refusal where
  | notText
  | notBase64 (cause : Base64.Error)
  deriving DecidableEq

def Refusal.message : Refusal → String
  | .notText => "Input must be a string"
  | .notBase64 cause => "Error decoding Base64: " ++ cause.message

def onText (f : String → Except Refusal String) : Function
  | .string s =>
      match f s with
      | .ok t => .value (.string t)
      | .error refusal => .failure ⟨refusal.message⟩
  | _ => .failure ⟨Refusal.notText.message⟩

def base64OfText (s : String) : String :=
  String.ofList ((Base64.encode (octets s.toList)).map fun octet => Char.ofNat octet.toNat)

def textOfBase64 (s : String) : Except Refusal String :=
  match Base64.decode (octets s.toList) with
  | .ok bytes => .ok (String.ofList (ofOctetsLenient bytes))
  | .error cause => .error (.notBase64 cause)

def encodeText : Function := onText fun s => .ok (base64OfText s)

def decodeText : Function := onText textOfBase64

end RecipeEngine.Builtin
