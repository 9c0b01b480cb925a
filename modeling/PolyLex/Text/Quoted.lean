import PolyLex.Text.GraphemeExtend
import PolyLex.Text.Unprintable

/-!
# Quoted text

A quoted text stands between double quotes on one visible line: what would break the line, end the
quotes or not be seen is written as an escape. The apostrophe is not escaped.
-/

namespace PolyLex.Text

/-- The digits of a number to base sixteen, in small letters. -/
def hexDigits (n : Nat) : List Char := Nat.toDigits 16 n

/-- A character between quotes. -/
def quoteChar (c : Char) : List Char :=
  if c = '\x00' then ['\\', '0']
  else if c = '\t' then ['\\', 't']
  else if c = '\r' then ['\\', 'r']
  else if c = '\n' then ['\\', 'n']
  else if c = '\\' then ['\\', '\\']
  else if c = '"' then ['\\', '"']
  else if !isGraphemeExtend c && isPrintable c then [c]
  else ['\\', 'u', '\x7b'] ++ hexDigits c.toNat ++ ['\x7d']

/-- A text with its quotes. -/
def quote (s : String) : String :=
  String.ofList ('"' :: s.toList.flatMap quoteChar ++ ['"'])

/-- The text, padded with spaces on the right to a width in characters. -/
def padRight (width : Nat) (s : String) : String :=
  s ++ String.ofList (List.replicate (width - s.length) ' ')

/-- The text, padded with spaces on the left to a width in characters. -/
def padLeft (width : Nat) (s : String) : String :=
  String.ofList (List.replicate (width - s.length) ' ') ++ s

end PolyLex.Text
