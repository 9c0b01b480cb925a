import PolyLex.Numeric.Shortest

/-!
# How decimals are laid out

Which digits stand for a floating number is settled by `Binary.shortest`; a `Layout` says how they
are written: up to which size without an exponent, and whether a whole number shows a point. Each
format that writes numbers has its own layout, next to the format.
-/

namespace PolyLex.Numeric

/-- The decisions of a number format. The *order* of a number is the power of ten of its first
digit. -/
structure Layout where
  /-- Numbers of a smaller order are written with an exponent; `none` if no number is. -/
  lowestPlain : Option Int := none
  /-- Numbers of this order or a higher one are written with an exponent; `none` if no number
  is. -/
  plainBelow : Option Int := none
  /-- Does a whole number end in `.0`? -/
  wholePoint : Bool := true
  /-- The text of the undefined value. -/
  undefined : String := "NaN"

namespace Layout

def zeros (n : Nat) : String := String.ofList (List.replicate n '0')

/-- Digits scaled by a power of ten, written without an exponent. -/
def plain (layout : Layout) (d : Decimal) : String :=
  let text := Nat.toDigits 10 d.digits
  match d.exponent with
  | .ofNat k => String.ofList text ++ zeros k ++ (if layout.wholePoint then ".0" else "")
  | .negSucc k =>
    let places := k + 1
    if places < text.length then
      String.ofList (text.take (text.length - places)) ++ "." ++
        String.ofList (text.drop (text.length - places))
    else "0." ++ zeros (places - text.length) ++ String.ofList text

/-- Digits scaled by a power of ten, written with one digit before the point and an exponent. -/
def withExponent (d : Decimal) (order : Int) : String :=
  let text := Nat.toDigits 10 d.digits
  let rest := text.drop 1
  String.ofList (text.take 1) ++ (if rest.isEmpty then "" else "." ++ String.ofList rest) ++
    "e" ++ toString order

def decimal (layout : Layout) (d : Decimal) : String :=
  let order : Int := (Nat.toDigits 10 d.digits).length - 1 + d.exponent
  if layout.lowestPlain.all (· ≤ order) && layout.plainBelow.all (order < ·) then plain layout d
  else withExponent d order

/-- The text of a floating number. -/
def write (layout : Layout) (p : Precision) : Binary → String
  | .nan => layout.undefined
  | .infinity negative => (if negative then "-" else "") ++ "inf"
  | .finite negative m e =>
    (if negative then "-" else "") ++
      if m = 0 then plain layout ⟨0, 0⟩ else decimal layout (Binary.shortest p m e)

end Layout

end PolyLex.Numeric
