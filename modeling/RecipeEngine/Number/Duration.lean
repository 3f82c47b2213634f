import RecipeEngine.Number.Shortest

/-!
# Durations
-/

namespace RecipeEngine

open Number

structure Duration where
  seconds : Nat
  nanoseconds : Fin 1000000000
  deriving DecidableEq

namespace Duration

def ofNanoseconds (n : Nat) : Duration := ⟨n / 1000000000, Fin.ofNat 1000000000 n⟩

def ofSeconds (n : Nat) : Duration := ⟨n, 0⟩

def toNanoseconds (d : Duration) : Nat := d.seconds * 1000000000 + d.nanoseconds

/-! ## Description -/

/-- A number of units with a fraction of `places` digits, without zeros at its end. -/
def describeDecimal (whole fraction places : Nat) : List Char :=
  let ds := digits fraction
  let padded := List.replicate (places - ds.length) '0' ++ ds
  let kept := (padded.reverse.dropWhile (· == '0')).reverse
  digits whole ++ (if kept.isEmpty then [] else '.' :: kept)

/-- A duration in the largest of seconds, milliseconds, microseconds and nanoseconds of which it
has at least one. -/
def describe (d : Duration) : String :=
  let n := d.nanoseconds.val
  if 0 < d.seconds then String.ofList (describeDecimal d.seconds n 9) ++ "s"
  else if 1000000 ≤ n then
    String.ofList (describeDecimal (n / 1000000) (n % 1000000) 6) ++ "ms"
  else if 1000 ≤ n then String.ofList (describeDecimal (n / 1000) (n % 1000) 3) ++ "µs"
  else String.ofList (digits n) ++ "ns"

/-! ## Milliseconds -/

/-- The quotient of a binary64 number and a whole number, rounded; zero where it is not finite,
which a divisor above zero rules out. -/
def dividedBy (x : Binary64) (n : Nat) : Binary64 :=
  match Binary64.nearest? x.units n with
  | some rank => ⟨x.negative, rank⟩
  | none => Binary64.zero

def milliseconds (d : Duration) : Binary64 :=
  match Binary64.ofInt? (d.toNanoseconds / 1000 : Nat) with
  | some micros => dividedBy micros 1000
  | none => Binary64.zero

example : (ofNanoseconds 1500000).describe = "1.5ms" := by decide +kernel

example : String.ofList (ofNanoseconds 1234567).milliseconds.numeral = "1.234" := by
  decide +kernel

end Duration

end RecipeEngine
