/-!
# The text of a duration

A duration in nanoseconds is written in the largest unit in which it is at least one, with as many
decimals as it needs.
-/

namespace PolyLex.Text

/-- The decimals of a fraction that is given with so many places, without zeros at the end. -/
def decimals (places fraction : Nat) : String :=
  let digits := (Nat.toDigits 10 (Nat.pow 10 places + fraction)).drop 1
  String.ofList (digits.reverse.dropWhile (· == '0')).reverse

/-- A duration in a unit of `10 ^ places` nanoseconds. -/
def durationIn (unit : String) (places nanoseconds : Nat) : String :=
  let whole := nanoseconds / Nat.pow 10 places
  let fraction := decimals places (nanoseconds % Nat.pow 10 places)
  toString whole ++ (if fraction.isEmpty then "" else "." ++ fraction) ++ unit

/-- A duration in nanoseconds. -/
def duration (nanoseconds : Nat) : String :=
  if Nat.pow 10 9 ≤ nanoseconds then durationIn "s" 9 nanoseconds
  else if Nat.pow 10 6 ≤ nanoseconds then durationIn "ms" 6 nanoseconds
  else if Nat.pow 10 3 ≤ nanoseconds then durationIn "µs" 3 nanoseconds
  else durationIn "ns" 0 nanoseconds

end PolyLex.Text
