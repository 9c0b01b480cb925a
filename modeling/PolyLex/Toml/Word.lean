import PolyLex.Calendar
import PolyLex.Json.Value
import PolyLex.Text.Trim

/-!
# Words in TOML documents

A value that is neither a text nor a list nor a table is one word: a truth value, a whole number, a
floating number or a moment. Whole numbers have 64 bits with a sign and may be written to the bases
sixteen, eight and two; an underscore may stand between two digits. A moment is a date, a time or
both, with a distance from universal time.

Values are kept as JSON values. A moment has no counterpart there: it becomes an object whose one
member holds its text.
-/

namespace PolyLex.Toml

open Numeric Text

/-- May the character stand in a word? -/
def isWordPart (c : Char) : Bool :=
  isBasicLetter c || isDigit c || c == '+' || c == '-' || c == '.' || c == '_' || c == ':'

/-! ### Whole numbers -/

/-- The digits of a number with underscores between some of them. -/
def digits? (isBaseDigit : Char → Bool) (cs : List Char) : Option (List Char) :=
  let groups := splitBy (· == '_') cs
  if groups.all fun g => !g.isEmpty && g.all isBaseDigit then some groups.flatten else none

/-- The number that some digits make up. -/
def ofDigits (base : Nat) (digits : List Char) : Nat :=
  digits.foldl (fun n c => base * n + (hexValue? c).getD 0) 0

/-- Decimal digits that do not start with a zero, unless it is the only one. -/
def decimal? (cs : List Char) : Option (List Char) := do
  let digits ← digits? isDigit cs
  if digits.head? == some '0' && digits.length != 1 then none else some digits

/-- The sign of a number, true for minus, and what follows it. -/
def splitSign : List Char → Bool × List Char
  | '-' :: rest => (true, rest)
  | '+' :: rest => (false, rest)
  | cs => (false, cs)

def signed (negative : Bool) (n : Nat) : Int := if negative then -n else n

/-- The number, if it has 64 bits. -/
def bounded? (n : Int) : Option Int :=
  if -0x8000000000000000 ≤ n ∧ n < 0x8000000000000000 then some n else none

def whole? : List Char → Option Int
  | '0' :: 'x' :: cs => (digits? isHexDigit cs).bind fun ds => bounded? (ofDigits 16 ds)
  | '0' :: 'o' :: cs =>
    (digits? (fun c => '0' ≤ c && c ≤ '7') cs).bind fun ds => bounded? (ofDigits 8 ds)
  | '0' :: 'b' :: cs =>
    (digits? (fun c => c == '0' || c == '1') cs).bind fun ds => bounded? (ofDigits 2 ds)
  | cs =>
    let (negative, rest) := splitSign cs
    (decimal? rest).bind fun ds => bounded? (signed negative (ofDigits 10 ds))

/-! ### Floating numbers -/

def exponent? (cs : List Char) : Option Int :=
  let (negative, rest) := splitSign cs
  (digits? isDigit rest).map fun ds => signed negative (ofDigits 10 ds)

/-- Is the character the letter of an exponent? -/
def isExponentMark (c : Char) : Bool := c == 'e' || c == 'E'

/-- Is the character one that only a floating number may hold? -/
def isRealMark (c : Char) : Bool := c == '.' || isExponentMark c

/-- A floating number that is written with digits: it has a point, an exponent or both. One that is
too large counts only below zero. -/
def digitsReal? (cs : List Char) : Option Binary := do
  let (negative, rest) := splitSign cs
  let mantissa := rest.takeWhile (!isExponentMark ·)
  let exponent ← match rest.dropWhile (!isExponentMark ·) with
    | [] => some 0
    | _ :: e => exponent? e
  let whole ← decimal? (mantissa.takeWhile (· ≠ '.'))
  let places ← match mantissa.dropWhile (· ≠ '.') with
    | [] => some []
    | _ :: places => digits? isDigit places
  if rest.any isRealMark then
    match Binary.ofDecimal .double negative (ofDigits 10 (whole ++ places))
      (exponent - places.length) with
    -- Only the overflow above is refused; the one below is infinite.
    | .infinity false => none
    | x => some x
  else none

def real? (cs : List Char) : Option Binary :=
  match splitSign cs with
  | (negative, ['i', 'n', 'f']) => some (.infinity negative)
  | (_, ['n', 'a', 'n']) => some .nan
  | _ => digitsReal? cs

/-! ### Moments -/

/-- The number of two digits, if it lies between two bounds. -/
def two? (low high : Nat) : List Char → Bool
  | [a, b] => isDigit a && isDigit b && low ≤ ofDigits 10 [a, b] && ofDigits 10 [a, b] ≤ high
  | _ => false

def isDate (cs : List Char) : Bool :=
  match splitBy (· == '-') cs with
  | [year, month, day] =>
    year.length == 4 && year.all isDigit && two? 1 12 month &&
      two? 1 (Date.daysIn (ofDigits 10 year) (ofDigits 10 month)) day
  | _ => false

/-- Is it a time of day, down to the second at least? -/
def isTime (cs : List Char) : Bool :=
  match splitBy (· == ':') cs with
  | [hour, minute, second] =>
    two? 0 23 hour && two? 0 59 minute && two? 0 60 (second.takeWhile (· ≠ '.')) &&
      match second.dropWhile (· ≠ '.') with
      | [] => true
      | _ :: fraction => !fraction.isEmpty && fraction.all isDigit
  | _ => false

/-- Is it a distance from universal time? -/
def isDistance : List Char → Bool
  | [z] => z == 'Z' || z == 'z'
  | sign :: cs =>
    (sign == '+' || sign == '-') &&
      match splitBy (· == ':') cs with
      | [hour, minute] => two? 0 23 hour && two? 0 59 minute
      | _ => false
  | [] => false

/-- Is it a time, perhaps with a distance from universal time? -/
def isTimeWithDistance (cs : List Char) : Bool :=
  let inTime := fun c => isDigit c || c == ':' || c == '.'
  isTime (cs.takeWhile inTime) && (cs.all inTime || isDistance (cs.dropWhile inTime))

/-- Is it a date, a time or both? -/
def isMoment (cs : List Char) : Bool :=
  isDate cs || isTime cs ||
    match cs.drop 10 with
    | t :: time =>
      (t == 'T' || t == 't' || t == ' ') && isDate (cs.take 10) && isTimeWithDistance time
    | [] => false

/-! ### Words -/

def word? (cs : List Char) : Option Json.Value :=
  if cs = ['t', 'r', 'u', 'e'] then some (.bool true)
  else if cs = ['f', 'a', 'l', 's', 'e'] then some (.bool false)
  else if isMoment cs then some (.obj [("moment", .str (String.ofList cs))])
  else match whole? cs with
    | some n => some (.int n)
    | none => (real? cs).map (.real .double)

/-- A word and what follows it. The time may follow its date behind a space. -/
def readWord (cs : List Char) : Option (Json.Value × List Char) :=
  let word := cs.takeWhile isWordPart
  match cs.dropWhile isWordPart with
  | ' ' :: d :: rest =>
    if isDate word && isDigit d then
      let time := (d :: rest).takeWhile isWordPart
      (word? (word ++ ' ' :: time)).map fun v => (v, (d :: rest).dropWhile isWordPart)
    else (word? word).map fun v => (v, ' ' :: d :: rest)
  | rest => (word? word).map fun v => (v, rest)

end PolyLex.Toml
