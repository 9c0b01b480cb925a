/-!
# Binary floating numbers

A floating number is a whole mantissa times a power of two, together with infinities and the
undefined value. `Precision` says how many bits a mantissa may have and how far exponents reach;
`Precision.double` and `Precision.single` are the two formats in use.

Everything is exact arithmetic on whole numbers: an operation forms the exact quotient and
`roundQuotient` rounds it once, to the nearest number of the format and to the even mantissa in
the middle of two.
-/

namespace PolyLex.Numeric

/-- The reach of a binary format. A finite number is `m * 2 ^ e` with `m < 2 ^ bits` and
`minExponent ≤ e ≤ maxExponent`. -/
structure Precision where
  bits : Nat
  minExponent : Int
  maxExponent : Int
  deriving Repr, DecidableEq

/-- Sixty-four bits, fifty-three of them mantissa. -/
def Precision.double : Precision := ⟨53, -1074, 971⟩

/-- Thirty-two bits, twenty-four of them mantissa. -/
def Precision.single : Precision := ⟨24, -149, 104⟩

/-- A floating number. A finite one is normal: its mantissa fills all bits unless the exponent is
the least one. -/
inductive Binary where
  | nan
  | infinity (negative : Bool)
  | finite (negative : Bool) (mantissa : Nat) (exponent : Int)
  deriving Repr, DecidableEq, Inhabited

namespace Binary

def zero (p : Precision) (negative : Bool) : Binary := finite negative 0 p.minExponent

/-- The quotient `num / (den * 2 ^ e)` as a pair of whole numbers. -/
def scaleQuotient (num den : Nat) : Int → Nat × Nat
  | .ofNat e => (num, den * Nat.pow 2 e)
  | .negSucc e => (num * Nat.pow 2 (e + 1), den)

/-- The whole number nearest to a quotient, the even one of two equally near. -/
def roundDiv (num den : Nat) : Nat :=
  let q := num / den
  let r := num % den
  if den < 2 * r || (2 * r == den && q % 2 == 1) then q + 1 else q

/-- The exponent at which a positive quotient has as many bits as the mantissa, or the least
exponent if it has fewer there. -/
def quotientExponent (p : Precision) (num den : Nat) : Int :=
  let guess : Int := num.log2 - den.log2 - p.bits
  let scaled := scaleQuotient num den guess
  max p.minExponent (if Nat.pow 2 p.bits ≤ scaled.1 / scaled.2 then guess + 1 else guess)

/-- The floating number nearest to a quotient with a positive divisor. -/
def roundQuotient (p : Precision) (negative : Bool) (num den : Nat) : Binary :=
  if num = 0 then zero p negative
  else
    let e := quotientExponent p num den
    let scaled := scaleQuotient num den e
    let m := roundDiv scaled.1 scaled.2
    let (m, e) := if m = Nat.pow 2 p.bits then (Nat.pow 2 (p.bits - 1), e + 1) else (m, e)
    if p.maxExponent < e then infinity negative else finite negative m e

/-- The numerator and divisor of a mantissa and an exponent. -/
def fraction (mantissa : Nat) : Int → Nat × Nat
  | .ofNat e => (mantissa * Nat.pow 2 e, 1)
  | .negSucc e => (mantissa, Nat.pow 2 (e + 1))

/-- The floating number nearest to a whole number. -/
def ofNat (p : Precision) (n : Nat) : Binary := roundQuotient p false n 1

/-- The floating number nearest to a decimal: the sign, the digits as a whole number and the power
of ten they are scaled by. Decimals beyond every format are settled by their magnitude alone. -/
def ofDecimal (p : Precision) (negative : Bool) (digits : Nat) (exponent : Int) : Binary :=
  let order : Int := (Nat.toDigits 10 digits).length + exponent
  if digits = 0 || order < -400 then zero p negative
  else if 400 < order then infinity negative
  else match exponent with
    | .ofNat k => roundQuotient p negative (digits * Nat.pow 10 k) 1
    | .negSucc k => roundQuotient p negative digits (Nat.pow 10 (k + 1))

def neg : Binary → Binary
  | nan => nan
  | infinity negative => infinity (!negative)
  | finite negative m e => finite (!negative) m e

/-- The product of two floating numbers, for finite factors. -/
def mul (p : Precision) : Binary → Binary → Binary
  | finite s m e, finite s' m' e' =>
    let (num, den) := fraction (m * m') (e + e')
    roundQuotient p (s != s') num den
  | _, _ => nan

/-- The quotient of two floating numbers, for finite operands and a divisor other than zero. -/
def div (p : Precision) : Binary → Binary → Binary
  | finite s m e, finite s' m' e' =>
    if m' = 0 then nan
    else
      let (num, den) := fraction m (e - e')
      roundQuotient p (s != s') num (den * m')
  | _, _ => nan

/-- The number of another format nearest to a floating number. -/
def convert (p : Precision) : Binary → Binary
  | finite negative m e =>
    let (num, den) := fraction m e
    roundQuotient p negative num den
  | x => x

/-- Is the number at least zero and at most `bound`? Both zeros are, the undefined value is not. -/
def inUnitRange (bound : Nat) : Binary → Bool
  | finite negative m e =>
    let (num, den) := fraction m e
    m == 0 || (!negative && num ≤ bound * den)
  | _ => false

def isZero : Binary → Bool
  | finite _ m _ => m == 0
  | _ => false

/-- The leading bit of a mantissa of double precision, which the interchange format leaves out. -/
def hiddenBit : Nat := 0x10000000000000

/-- The bits of the interchange format of a double: sign, exponent and mantissa. -/
def doubleBits : Binary → Nat
  | nan => 0x7FF8000000000000
  | infinity negative => (if negative then 0x8000000000000000 else 0) + 0x7FF0000000000000
  | finite negative m e =>
    (if negative then 0x8000000000000000 else 0) +
      if m < hiddenBit then m else (e + 1075).toNat * hiddenBit + (m - hiddenBit)

end Binary

end PolyLex.Numeric
