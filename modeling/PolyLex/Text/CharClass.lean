import PolyLex.Text.Alphabetic
import PolyLex.Text.Numeric

/-!
# Character classes of source text

The classes that the scanner, the trimming of texts and the number grammar ask for. `isBlank` is
the property *White_Space*; it is wider than `Char.isWhitespace`, which knows four characters.
`isWordStart` and `isWordPart` say where an identifier may begin and how it goes on.
-/

namespace PolyLex.Text

/-- The intervals of code points that are white space, in ascending order. -/
def blankRanges : List (Nat × Nat) :=
  [(0x9, 0xD), (0x20, 0x20), (0x85, 0x85), (0xA0, 0xA0), (0x1680, 0x1680), (0x2000, 0x200A),
   (0x2028, 0x2029), (0x202F, 0x202F), (0x205F, 0x205F), (0x3000, 0x3000)]

def isBlank (c : Char) : Bool := inRanges blankRanges c.toNat

/-- Is the character a letter or a number of any script? -/
def isAlphanumeric (c : Char) : Bool := isAlphabetic c || isNumeric c

def isDigit (c : Char) : Bool := '0' ≤ c && c ≤ '9'

/-- One of the twenty-six letters, in either case. -/
def isBasicLetter (c : Char) : Bool := ('a' ≤ c && c ≤ 'z') || ('A' ≤ c && c ≤ 'Z')

/-- One of the sixteen hexadecimal digits, in either case. -/
def isHexDigit (c : Char) : Bool :=
  isDigit c || ('a' ≤ c && c ≤ 'f') || ('A' ≤ c && c ≤ 'F')

def hexValue? (c : Char) : Option Nat :=
  if isDigit c then some (c.toNat - '0'.toNat)
  else if 'a' ≤ c && c ≤ 'f' then some (c.toNat - 'a'.toNat + 10)
  else if 'A' ≤ c && c ≤ 'F' then some (c.toNat - 'A'.toNat + 10)
  else none

/-- The hexadecimal digit of a value below sixteen, in capitals. -/
def capitalHexDigit (value : Nat) : Char :=
  if value < 10 then Char.ofNat ('0'.toNat + value) else Char.ofNat ('A'.toNat + (value - 10))

/-- The small letter of a capital among the twenty-six, and any other character as it stands. -/
def lowerAscii (c : Char) : Char :=
  if 'A' ≤ c && c ≤ 'Z' then Char.ofNat (c.toNat + 32) else c

end PolyLex.Text
