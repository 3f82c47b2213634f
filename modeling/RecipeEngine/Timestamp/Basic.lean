import RecipeEngine.Timestamp.Date
import RecipeEngine.Number.Decimal

/-!
# Timestamps

An instant in universal time, to the nanosecond.  A minute may have a 61st second.
-/

namespace RecipeEngine

structure Timestamp where
  date : Date
  hour : Fin 24
  minute : Fin 60
  /-- The second; 60 is a leap second. -/
  second : Fin 61
  nanosecond : Fin 1000000000
  deriving DecidableEq

namespace Timestamp

def epoch : Timestamp :=
  ⟨Date.epoch, ⟨0, by decide⟩, ⟨0, by decide⟩, ⟨0, by decide⟩, ⟨0, by decide⟩⟩

def padded (width n : Nat) : List Char :=
  let ds := Number.digits n
  List.replicate (width - ds.length) '0' ++ ds

/-- A year: four digits from 0 to 9999, with a sign and at least four digits elsewhere. -/
def renderYear (year : Int) : List Char :=
  if 0 ≤ year ∧ year ≤ 9999 then padded 4 year.natAbs
  else (if year < 0 then '-' else '+') :: padded 4 year.natAbs

def renderFraction (nanosecond : Nat) : List Char :=
  if nanosecond = 0 then []
  else if nanosecond % 1000000 = 0 then '.' :: padded 3 (nanosecond / 1000000)
  else if nanosecond % 1000 = 0 then '.' :: padded 6 (nanosecond / 1000)
  else '.' :: padded 9 nanosecond

def render (t : Timestamp) : List Char :=
  renderYear t.date.year ++ ['-'] ++ padded 2 t.date.month ++ ['-'] ++ padded 2 t.date.day ++
    ['T'] ++ padded 2 t.hour ++ [':'] ++ padded 2 t.minute ++ [':'] ++ padded 2 t.second ++
    renderFraction t.nanosecond ++ ['Z']

example : String.ofList (epoch.render) = "1970-01-01T00:00:00Z" := by decide +kernel

end Timestamp

end RecipeEngine
