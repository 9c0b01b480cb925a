import PolyLex.Json.Value
import PolyLex.Numeric.Layout

/-!
# Writing JSON documents

`Value.pretty` writes a value over several lines: two spaces per level, members in the order in
which the value holds them, empty arrays and objects closed at once. In strings the quote, the
backslash and the control characters are escaped, all else stands as it is.
-/

namespace PolyLex.Json

open Numeric

/-- Singles are written without an exponent from a millionth up to ten trillion, doubles from a
hundred-thousandth up to ten quadrillion. -/
def numberLayout (p : Precision) : Layout :=
  if p = .single then { lowestPlain := some (-6), plainBelow := some 13 }
  else { lowestPlain := some (-5), plainBelow := some 16 }

def hexDigit (n : Nat) : Char := if n < 10 then Char.ofNat (48 + n) else Char.ofNat (87 + n)

/-- A character inside a string. -/
def escape (c : Char) : List Char :=
  if c = '"' then ['\\', '"']
  else if c = '\\' then ['\\', '\\']
  else if c = '\x08' then ['\\', 'b']
  else if c = '\x0c' then ['\\', 'f']
  else if c = '\n' then ['\\', 'n']
  else if c = '\r' then ['\\', 'r']
  else if c = '\t' then ['\\', 't']
  else if c.toNat < 0x20 then
    ['\\', 'u', '0', '0', hexDigit (c.toNat / 16), hexDigit (c.toNat % 16)]
  else [c]

/-- A string with its quotes. -/
def quoted (s : String) : List Char := '"' :: s.toList.flatMap escape ++ ['"']

/-- A whole number. -/
def intText : Int → List Char
  | .ofNat n => Nat.toDigits 10 n
  | .negSucc n => '-' :: Nat.toDigits 10 (n + 1)

namespace Value

/-- A line break and the white space of a level. -/
def newLine (level : Nat) : List Char := '\n' :: List.replicate (2 * level) ' '

mutual
/-- The characters of a value that starts at some level. -/
def prettyAt (level : Nat) : Value → List Char
  | null | unfit => ['n', 'u', 'l', 'l']
  | bool true => ['t', 'r', 'u', 'e']
  | bool false => ['f', 'a', 'l', 's', 'e']
  | int n => intText n
  | real p x => ((numberLayout p).write p x).toList
  | str s => quoted s
  | arr [] => ['[', ']']
  | arr (v :: rest) =>
    '[' :: newLine (level + 1) ++ prettyAt (level + 1) v ++ prettyItems (level + 1) rest ++
      newLine level ++ [']']
  | obj [] => ['\x7b', '\x7d']
  | obj ((name, v) :: rest) =>
    '\x7b' :: newLine (level + 1) ++ quoted name ++ [':', ' '] ++ prettyAt (level + 1) v ++
      prettyMembers (level + 1) rest ++ newLine level ++ ['\x7d']
/-- The items of an array behind the first. -/
def prettyItems (level : Nat) : List Value → List Char
  | [] => []
  | v :: rest => ',' :: newLine level ++ prettyAt level v ++ prettyItems level rest
/-- The members of an object behind the first. -/
def prettyMembers (level : Nat) : List (String × Value) → List Char
  | [] => []
  | (name, v) :: rest =>
    ',' :: newLine level ++ quoted name ++ [':', ' '] ++ prettyAt level v ++
      prettyMembers level rest
end

/-- The document of a value over several lines. -/
def pretty (v : Value) : String := String.ofList (prettyAt 0 v)

end Value

end PolyLex.Json
