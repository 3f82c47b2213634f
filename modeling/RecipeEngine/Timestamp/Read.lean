import RecipeEngine.Timestamp.Basic
import RecipeEngine.Text.Blank

/-!
# Reading timestamps

Blanks may stand in front of numbers, dashes, colons and the offset; the date and the time are
separated by `T` or one space; the offset is `Z`, `UTC` or a sign with hours and minutes.
-/

namespace RecipeEngine.Timestamp

open Text

inductive ReadError where
  | endsEarly
  | wrongCharacter
  | outOfRange
  | goesOn
  | outsideCalendar
  deriving DecidableEq

namespace ReadError

def message : ReadError → String
  | .endsEarly => "premature end of input"
  | .wrongCharacter => "input contains invalid characters"
  | .outOfRange => "input is out of range"
  | .goesOn => "trailing input"
  | .outsideCalendar => "no possible date and time matching input"

end ReadError

abbrev Part (α : Type) := List Char → Except ReadError (α × List Char)

/-! ## Numbers -/

/-- Reads a number of at least one and at most `width` digits. -/
def readDigits (width : Nat) : Part (List Char)
  | [] => .error .endsEarly
  | c :: cs =>
      if c.isDigit then
        let ds := ((c :: cs).take width).takeWhile Char.isDigit
        .ok (ds, (c :: cs).drop ds.length)
      else .error .wrongCharacter

def readBounded (width low high : Nat) : Part Nat := fun cs => do
  let (ds, rest) ← readDigits width (trimStart cs)
  let n := Number.ofDigits ds
  if low ≤ n ∧ n ≤ high then .ok (n, rest) else .error .outOfRange

/-- A year is kept in 32 bits with a sign, so this is the first that is too large. -/
def yearLimit : Nat := 0x80000000

def readUnsignedYear (negative : Bool) (width : Nat) : Part Int := fun cs => do
  let (ds, rest) ← readDigits width cs
  let n := Number.ofDigits ds
  if n < yearLimit ∨ (negative ∧ n = yearLimit) then
    .ok (if negative then -(n : Int) else n, rest)
  else .error .outOfRange

/-- Reads a year: at most four digits, or a sign and any number of digits. -/
def readYear : Part Int := fun cs =>
  match trimStart cs with
  | '-' :: rest => readUnsignedYear true rest.length rest
  | '+' :: rest => readUnsignedYear false rest.length rest
  | rest => readUnsignedYear false 4 rest

def readSeparator (wanted : Char) : Part Unit := fun cs =>
  match trimStart cs with
  | [] => .error .endsEarly
  | c :: rest => if c = wanted then .ok ((), rest) else .error .wrongCharacter

/-! ## The parts of a timestamp -/

def readDate : Part (Int × Nat × Nat) := fun cs => do
  let (year, cs) ← readYear cs
  let (_, cs) ← readSeparator '-' cs
  let (month, cs) ← readBounded 2 1 12 cs
  let (_, cs) ← readSeparator '-' cs
  let (day, cs) ← readBounded 2 1 31 cs
  .ok ((year, month, day), cs)

def readDateEnd : Part Unit
  | [] => .error .endsEarly
  | c :: rest => if c = 'T' ∨ c = 't' ∨ c = ' ' then .ok ((), rest) else .error .wrongCharacter

/-- Reads the digits after the point of the seconds, as nanoseconds: nine digits, as if zeros
followed those that are there. -/
def readFraction : Part Nat
  | '.' :: rest => do
      let (ds, rest) ← readDigits 9 rest
      let nine := ds ++ List.replicate (9 - ds.length) '0'
      .ok (Number.ofDigits nine, rest.dropWhile Char.isDigit)
  | rest => .ok (0, rest)

def readTwoDigits : Part (Nat × Nat)
  | [] => .error .endsEarly
  -- Length is counted in octets, so one wide character is long enough to be wrong.
  | [c] => .error (if c.utf8Size = 1 then .endsEarly else .wrongCharacter)
  | a :: b :: rest =>
      if a.isDigit ∧ b.isDigit then .ok ((a.toNat - 48, b.toNat - 48), rest)
      else .error .wrongCharacter

/-- Reads the hours and minutes of an offset, in minutes.  Colons and blanks may stand between
them. -/
def readOffsetMinutes : Part Nat := fun cs => do
  let ((h, h'), cs) ← readTwoDigits cs
  let ((m, m'), cs) ← readTwoDigits (cs.dropWhile fun c => c = ':' ∨ isBlank c)
  if 6 ≤ m then .error .outOfRange
  else .ok ((10 * h + h') * 60 + (10 * m + m'), cs)

def readOffset : Part Int
  | [] => .error .endsEarly
  | c :: rest =>
      if ((c :: rest).take 3).map Char.toUpper = ['U', 'T', 'C'] then .ok (0, rest.drop 2)
      else if c = 'Z' ∨ c = 'z' then .ok (0, rest)
      else if c = '+' then (readOffsetMinutes rest).map fun (n, rest) => ((n : Int), rest)
      else if c = '-' ∨ c = '\u2212' then
        (readOffsetMinutes rest).map fun (n, rest) => (-(n : Int), rest)
      else .error .wrongCharacter

/-! ## Instants -/

def dayMinutes : Nat := 1440

/-- The instant at a local date and time, the offset from universal time given in minutes. -/
def ofLocal (date : Date) (minuteOfDay : Nat) (second : Fin 61) (nanosecond : Fin 1000000000)
    (offset : Int) : Except ReadError Timestamp :=
  let minutes := (minuteOfDay : Int) - offset
  let day? :=
    if minutes < 0 then date.previous?
    else if dayMinutes ≤ minutes then date.next?
    else some date
  match day? with
  | none => .error .outsideCalendar
  | some day =>
      let n := (minutes % dayMinutes).toNat
      .ok { date := day
            hour := ⟨n / 60 % 24, by omega⟩
            minute := ⟨n % 60, by omega⟩
            second := second
            nanosecond := nanosecond }

def read (cs : List Char) : Except ReadError Timestamp := do
  let ((year, month, day), cs) ← readDate cs
  let (_, cs) ← readDateEnd cs
  let (hour, cs) ← readBounded 2 0 23 cs
  let (_, cs) ← readSeparator ':' cs
  let (minute, cs) ← readBounded 2 0 59 cs
  let (_, cs) ← readSeparator ':' cs
  let (second, cs) ← readBounded 2 0 60 cs
  let (nanosecond, cs) ← readFraction cs
  let (offset, cs) ← readOffset (trimStart cs)
  -- Only a text that is a timestamp in form is asked whether it names an instant.
  if (trimStart cs).isEmpty then
    match Date.of? year month day with
    | none => .error .outOfRange
    | some date =>
        if dayMinutes ≤ offset.natAbs then .error .outOfRange
        else
          ofLocal date (hour * 60 + minute) ⟨second % 61, by omega⟩
            ⟨nanosecond % 1000000000, by omega⟩ offset
  else .error .goesOn

/-- An offset moves the instant across midnight. -/
example : (read "2024-01-01 00:30:00.5+01:00".toList).toOption.map (String.ofList ∘ render) =
    some "2023-12-31T23:30:00.500Z" := by decide +kernel

end RecipeEngine.Timestamp
