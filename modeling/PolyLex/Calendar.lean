/-!
# Days

Days are those of the Gregorian calendar, extended to all years in reach. A day is written with
dashes between its numbers.
-/

namespace PolyLex

structure Date where
  year : Int
  month : Nat
  day : Nat
  deriving Repr, DecidableEq, Inhabited

namespace Date

/-- Every fourth year is a leap year, but of the full centuries only every fourth. -/
def isLeapYear (year : Int) : Bool :=
  year % 4 == 0 && (year % 100 != 0 || year % 400 == 0)

/-- The number of days of a month; none outside the twelve. -/
def daysIn (year : Int) (month : Nat) : Nat :=
  if month = 2 then (if isLeapYear year then 29 else 28)
  else if [4, 6, 9, 11].contains month then 30
  else if 1 ≤ month ∧ month ≤ 12 then 31
  else 0

/-- The first and the last year in reach. -/
def yearRange : Int × Int := (-262143, 262142)

/-- The day with these numbers, if the calendar has it. -/
def ofNumbers? (year : Int) (month day : Nat) : Option Date :=
  if yearRange.1 ≤ year ∧ year ≤ yearRange.2 ∧ 1 ≤ day ∧ day ≤ daysIn year month then
    some ⟨year, month, day⟩
  else none

/-- A number with zeros in front up to a width. -/
def padZeros (width n : Nat) : String :=
  let digits := Nat.toDigits 10 n
  String.ofList (List.replicate (width - digits.length) '0' ++ digits)

/-- A year in four digits; years beyond those carry their sign. -/
def yearText (year : Int) : String :=
  if 0 ≤ year ∧ year ≤ 9999 then padZeros 4 year.natAbs
  else (if year < 0 then "-" else "+") ++ padZeros 4 year.natAbs

/-- Year, month and day with dashes between them. -/
def text (d : Date) : String :=
  yearText d.year ++ "-" ++ padZeros 2 d.month ++ "-" ++ padZeros 2 d.day

end Date

end PolyLex
