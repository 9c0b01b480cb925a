import PolyLex.Numeric.Binary

/-!
# The shortest decimal of a floating number

Every real number that lies nearer to a floating number than to its neighbours reads back as that
number. `shortest` finds the decimal with the fewest digits in that interval, and of several with
as few digits the one nearest to the number itself. It tries the grids of one digit, two digits
and so on; on each grid only the two neighbours of the number can be the nearest hit.
-/

namespace PolyLex.Numeric

/-- A positive decimal: digits as a whole number, scaled by a power of ten. -/
structure Decimal where
  digits : Nat
  exponent : Int
  deriving Repr, DecidableEq, Inhabited

namespace Binary

/-- Multiply a quotient by a power of ten. -/
def scaleTen (num den : Nat) : Int → Nat × Nat
  | .ofNat k => (num * Nat.pow 10 k, den)
  | .negSucc k => (num, den * Nat.pow 10 (k + 1))

/-- The number of places that a positive quotient below one has to be shifted to reach one. -/
def leadingPlaces : (fuel num den : Nat) → Nat
  | 0, _, _ => 0
  | fuel + 1, num, den => if den ≤ num then 0 else leadingPlaces fuel (num * 10) den + 1

/-- The power of ten of the first digit of a positive quotient. No number of either format needs
more than four hundred places. -/
def decimalOrder (num den : Nat) : Int :=
  if den ≤ num then (Nat.toDigits 10 (num / den)).length - 1
  else -(leadingPlaces 400 num den : Int)

/-- Does the decimal `d * 10 ^ k` read back as the number `m * 2 ^ e`? The interval reaches half
way to the neighbours; below a power of two the lower neighbour is twice as near. Its ends belong
to it when the mantissa is even. -/
def readsBack (p : Precision) (m : Nat) (e : Int) (d : Nat) (k : Int) : Bool :=
  let below := if m = Nat.pow 2 (p.bits - 1) ∧ p.minExponent < e then 1 else 2
  let (lowNum, lowDen) := fraction (4 * m - below) (e - 2)
  let (highNum, highDen) := fraction (4 * m + 2) (e - 2)
  let (num, den) := scaleTen d 1 k
  if m % 2 = 0 then lowNum * den ≤ num * lowDen && num * highDen ≤ highNum * den
  else lowNum * den < num * lowDen && num * highDen < highNum * den

/-- The nearest decimal of the grid `10 ^ k` that reads back as `m * 2 ^ e`. -/
def onGrid? (p : Precision) (m : Nat) (e k : Int) : Option Decimal :=
  let (num, den) := fraction m e
  let (num, den) := scaleTen num den (-k)
  let low := num / den
  let r := num % den
  let lowFits := readsBack p m e low k
  let highFits := readsBack p m e (low + 1) k
  let preferHigh := den < 2 * r || (2 * r == den && low % 2 == 1)
  if highFits && (preferHigh || !lowFits) then some ⟨low + 1, k⟩
  else if lowFits then some ⟨low, k⟩
  else none

/-- Try the grids of growing fineness below a first digit at `10 ^ order`. -/
def shortestFrom (p : Precision) (m : Nat) (e order : Int) : (fuel places : Nat) → Decimal
  | 0, _ => ⟨m, 0⟩
  | fuel + 1, places =>
    match onGrid? p m e (order - places) with
    | some d => d
    | none => shortestFrom p m e order fuel (places + 1)

/-- Drop the zeros at the end of the digits. -/
def dropZeros : (fuel : Nat) → Decimal → Decimal
  | 0, d => d
  | fuel + 1, d =>
    if d.digits ≠ 0 ∧ d.digits % 10 = 0 then dropZeros fuel ⟨d.digits / 10, d.exponent + 1⟩ else d

/-- The shortest decimal that reads back as the positive number `m * 2 ^ e`. -/
def shortest (p : Precision) (m : Nat) (e : Int) : Decimal :=
  let (num, den) := fraction m e
  dropZeros 20 (shortestFrom p m e (decimalOrder num den) 20 0)

end Binary

end PolyLex.Numeric
