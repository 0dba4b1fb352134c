import Lectern.Text.Numeral

/-!
# Dates and times

A **`Date`**, a **`Time`** of day and the distance of a zone from universal time, in the form that orders them:
`2024-05-01`, `07:32:00.5`, `+02:00`. A fraction of a second is shown with six digits if it is not zero.
-/

set_option autoImplicit false

namespace Lectern

/-- A number in decimal digits with zeros in front, at least `width` digits in all. -/
def Numeral.padded (width n : Nat) : Text :=
  let digits := Numeral.write n
  List.replicate (width - digits.length) '0' ++ digits

/-- A day of the calendar. -/
structure Date where
  year : Nat
  month : Nat
  day : Nat
deriving DecidableEq, Repr

namespace Date

/-- A year with a 29th of February. -/
def isLeap (year : Nat) : Bool := year % 4 == 0 && (year % 100 != 0 || year % 400 == 0)

/-- The number of days of a month. -/
def daysIn (year month : Nat) : Nat :=
  if month = 2 then if isLeap year then 29 else 28
  else if month = 4 ∨ month = 6 ∨ month = 9 ∨ month = 11 then 30
  else 31

/-- Whether the day exists; years are counted from 1 to 9999. -/
def isValid (date : Date) : Bool :=
  1 ≤ date.year && date.year ≤ 9999 && 1 ≤ date.month && date.month ≤ 12 &&
    1 ≤ date.day && date.day ≤ daysIn date.year date.month

/-- The date as it is written. -/
def print (date : Date) : Text :=
  Numeral.padded 4 date.year ++ ['-'] ++ Numeral.padded 2 date.month ++ ['-'] ++ Numeral.padded 2 date.day

end Date

/-- A time of day. -/
structure Time where
  hour : Nat
  minute : Nat
  second : Nat
  /-- Millionths of a second. -/
  micros : Nat
deriving DecidableEq, Repr

/-- The time as it is written. -/
def Time.print (time : Time) : Text :=
  Numeral.padded 2 time.hour ++ [':'] ++ Numeral.padded 2 time.minute ++ [':'] ++ Numeral.padded 2 time.second ++
    if time.micros = 0 then [] else ['.'] ++ Numeral.padded 6 time.micros

/-- The distance of a zone from universal time in minutes, as it is written. -/
def printOffset (minutes : Int) : Text :=
  [if minutes < 0 then '-' else '+'] ++ Numeral.padded 2 (minutes.natAbs / 60) ++ [':'] ++
    Numeral.padded 2 (minutes.natAbs % 60)

/-- A date and a time of day, perhaps with the distance of a zone from universal time, as they are written. -/
def printDateTime (date : Date) (time : Time) (offset : Option Int) : Text :=
  date.print ++ ['T'] ++ time.print ++ offset.elim [] printOffset

end Lectern
