import PolyLex.Json.Printer
import PolyLex.Numeric.Layout
import PolyLex.Text.CharClass

/-!
# Writing TOML documents

A table is written as its plain entries, then its inner tables, each behind a header and an empty
line. A text is written in the first of four forms that shows it without an escape: between double
quotes, between single ones, on several lines between double ones, on several lines between single
ones. A text that none of them shows is escaped.

Keys are written as they are, so they have to be keys without quotes. There is no document with a
whole number that has more than 64 bits.
-/

namespace PolyLex.Toml

open Json (Value)
open Numeric

/-! ### Numbers -/

/-- Numbers are written without an exponent, and a whole one ends in a point and a zero. -/
def numberLayout : Layout := { undefined := "nan" }

/-! ### Texts -/

/-- The length of the longest run of a character, if it is longer than `best`; `run` is the length
of the run that goes on. -/
def longestRun (mark : Char) (run best : Nat) : List Char → Nat
  | [] => best
  | c :: cs =>
    if c = mark then longestRun mark (run + 1) (max best (run + 1)) cs
    else longestRun mark 0 best cs

/-- Is it a control character other than a tab and a line feed? -/
def isHidden (c : Char) : Bool := c ≠ '\t' && c ≠ '\n' && (c < ' ' || c = '\x7F')

/-- The four forms of a text. -/
inductive TextForm where
  | basic
  | literal
  | longBasic
  | longLiteral
  deriving Repr, DecidableEq

/-- The form in which a text is written. -/
def textForm (cs : List Char) : TextForm :=
  let hidden := cs.any isHidden
  let escape := cs.contains '\\'
  let lineBreak := cs.contains '\n'
  let double := longestRun '"' 0 0 cs
  let single := longestRun '\'' 0 0 cs
  if !hidden && !escape && double = 0 && !lineBreak then .basic
  else if !hidden && single = 0 && !lineBreak then .literal
  else if !hidden && !escape && double ≤ 2 then .longBasic
  else if !hidden && single ≤ 2 then .longLiteral
  else if lineBreak then .longBasic
  else .basic

/-- The escape of a character that is no quote. -/
def escape (c : Char) : List Char :=
  if c = '\x08' then ['\\', 'b']
  else if c = '\t' then ['\\', 't']
  else if c = '\n' then ['\\', 'n']
  else if c = '\x0c' then ['\\', 'f']
  else if c = '\r' then ['\\', 'r']
  else if c = '\\' then ['\\', '\\']
  else if c < ' ' || c = '\x7F' then
    ['\\', 'u', '0', '0', Text.capitalHexDigit (c.toNat / 16), Text.capitalHexDigit (c.toNat % 16)]
  else [c]

/-- The characters of a text between double quotes: up to `quotes` of them in a row are left as they
are, of which `run` are behind us. -/
def escapeAll (long : Bool) (quotes run : Nat) : List Char → List Char
  | [] => []
  | c :: cs =>
    if c = '"' then
      if run < quotes then c :: escapeAll long quotes (run + 1) cs
      else '\\' :: c :: escapeAll long quotes 0 cs
    else if c = '\n' ∧ long then c :: escapeAll long quotes 0 cs
    else escape c ++ escapeAll long quotes 0 cs

/-- A text with its quotes. -/
def textChars (s : String) : List Char :=
  let cs := s.toList
  let start := if cs.contains '\n' then ['\n'] else []
  match textForm cs with
  | .basic => '"' :: escapeAll false 0 0 cs ++ ['"']
  | .literal => '\'' :: cs ++ ['\'']
  | .longBasic => ['"', '"', '"'] ++ start ++ escapeAll true 2 0 cs ++ ['"', '"', '"']
  | .longLiteral => ['\'', '\'', '\''] ++ start ++ cs ++ ['\'', '\'', '\'']

/-! ### Tables -/

/-- A plain value; `none` for nothing and for what is no plain value. -/
def plainChars? : Value → Option (List Char)
  | .bool b => some (if b then ['t', 'r', 'u', 'e'] else ['f', 'a', 'l', 's', 'e'])
  | .int n => some (Json.intText n)
  | .real p x => some (numberLayout.write p x).toList
  | .str s => some (textChars s)
  | _ => none

/-- The line of a key with a plain value. -/
def entryLine (key : String) (v : Value) : List Char :=
  match plainChars? v with
  | some cs => key.toList ++ [' ', '=', ' '] ++ cs ++ ['\n']
  | none => []

/-- The lines of the plain entries of a table. -/
def entryLines (members : List (String × Value)) : List Char :=
  members.flatMap fun m => entryLine m.1 m.2

/-- An inner table behind its header. -/
def tableLines (key : String) : Value → List Char
  | .obj members => ['\n', '['] ++ key.toList ++ [']', '\n'] ++ entryLines members
  | _ => []

/-- The document of a table whose inner tables have plain entries only. -/
def document (members : List (String × Value)) : String :=
  String.ofList (entryLines members ++ members.flatMap fun m => tableLines m.1 m.2)

/-- Is the value no whole number, or one that a document can hold: of 64 bits with its sign? -/
def inRange : Value → Bool
  | .int n => -0x8000000000000000 ≤ n && n < 0x8000000000000000
  | _ => true

/-- The document of a table, unless a number of it is out of range. -/
def document? (members : List (String × Value)) : Option String :=
  let inner := members.flatMap fun m => m.2.members?.getD []
  if (members ++ inner).all fun m => inRange m.2 then some (document members) else none

end PolyLex.Toml
