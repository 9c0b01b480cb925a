import PolyLex.Text.CharClass
import PolyLex.Json.Value

/-!
# What a JSON number stands for

A number without fraction and exponent is a whole number as long as it fits 64 bits; minus zero is
not one. Every other number is a double, reached in two steps of double arithmetic: as many leading
digits as fit 64 bits become a double, and that is multiplied or divided by the power of ten which
the remaining digits, the point and the exponent amount to. A result beyond the doubles is refused;
one below them is zero.
-/

namespace PolyLex.Json

open Numeric

/-- The parts of a number as they are written. -/
structure NumberText where
  negative : Bool
  /-- Digits before the point. -/
  whole : List Nat
  /-- Digits behind the point, if there is one. -/
  fraction : Option (List Nat) := none
  /-- The sign and the digits of the exponent, if there is one. -/
  exponent : Option (Bool × List Nat) := none
  deriving Repr

namespace NumberText

/-- The largest unsigned number of 64 bits. -/
def wordMax : Nat := 0xFFFFFFFFFFFFFFFF

/-- The largest exponent that is looked at. -/
def exponentMax : Nat := 0x7FFFFFFF

def ofDigits (digits : List Nat) : Nat := digits.foldl (fun n d => n * 10 + d) 0

/-- Take digits into a significand as long as it stays within `bound`. Returns the significand and
how many digits it took. -/
def absorb (bound significand : Nat) : List Nat → Nat × Nat
  | [] => (significand, 0)
  | d :: rest =>
    if bound < significand * 10 + d then (significand, 0)
    else
      let (s, k) := absorb bound (significand * 10 + d) rest
      (s, k + 1)

/-- A double times a power of ten; `none` beyond the doubles. Powers that are no doubles are
applied in steps of three hundred and eight. -/
def scale? (x : Binary) (exponent : Int) : Option Binary :=
  if exponent.natAbs ≤ 308 then
    let power := Binary.ofDecimal .double false 1 exponent.natAbs
    if 0 ≤ exponent then
      match x.mul .double power with
      | .infinity _ => none
      | y => some y
    else some (x.div .double power)
  else if x.isZero then some x
  else if 0 ≤ exponent then none
  else scale? (x.div .double (Binary.ofDecimal .double false 1 308)) (exponent + 308)
termination_by exponent.natAbs

/-- The signed double that a significand and a power of ten amount to. -/
def real? (negative : Bool) (significand : Nat) (exponent : Int) : Option Value :=
  (scale? (Binary.ofNat .double significand) exponent).map fun x =>
    .real .double (if negative then x.neg else x)

/-- The value of a number that is written with a point, an exponent or too many digits. -/
def realValue? (t : NumberText) : Option Value :=
  let (s, taken) := absorb wordMax 0 t.whole
  let dropped : Int := t.whole.length - taken
  let (s, places) := absorb wordMax s (t.fraction.getD [])
  let shift : Int := dropped - places
  match t.exponent with
  | none => real? t.negative s shift
  | some (minus, digits) =>
    if exponentMax < ofDigits digits then
      if s ≠ 0 ∧ ¬ minus then none else some (.real .double (Binary.zero .double t.negative))
    else
      let e : Int := ofDigits digits
      real? t.negative s (if minus then shift - e else shift + e)

/-- The value of a number; `none` if it lies beyond the doubles. -/
def value? (t : NumberText) : Option Value :=
  let n := ofDigits t.whole
  if t.fraction.isNone ∧ t.exponent.isNone ∧ n ≤ wordMax then
    if ¬ t.negative then some (.int n)
    else if n = 0 ∨ 0x8000000000000000 < n then real? true n 0
    else some (.int (-n))
  else realValue? t

end NumberText

end PolyLex.Json
