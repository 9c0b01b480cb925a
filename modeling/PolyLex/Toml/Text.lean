import PolyLex.Text.CharClass

/-!
# Texts in TOML documents

A text stands between quotes in one of four forms: with or without escapes, on one line or on
several. The readers here start behind the opening quotes and return the text and what follows the
closing quotes. On several lines the line break right behind the opening quotes does not count, a
line break is one line feed however it is written, and up to two quotes may stand before the closing
ones.
-/

namespace PolyLex.Toml

open Text

/-- May the character stand in a text on one line? Control characters may not, but for the tab. -/
def isPlain (c : Char) : Bool := c == '\t' || (' ' ≤ c && c ≠ '\x7F')

/-- The character that a number in hexadecimal digits stands for. -/
def hexChar? (digits : List Char) : Option Char := do
  let n ← digits.foldlM (fun n c => (hexValue? c).map (16 * n + ·)) 0
  if n.isValidChar then some (Char.ofNat n) else none

/-- The character that a letter behind a backslash stands for. -/
def escaped? : Char → Option Char
  | 'b' => some '\x08'
  | 't' => some '\t'
  | 'n' => some '\n'
  | 'f' => some '\x0c'
  | 'r' => some '\r'
  | '"' => some '"'
  | '\\' => some '\\'
  | _ => none

/-- Put a character, if there is one, before a text that was read. -/
def before (c : Option Char) (read : Option (List Char × List Char)) :
    Option (List Char × List Char) :=
  c.bind fun c => read.map fun (s, rest) => (c :: s, rest)

/-- A text with escapes on one line. -/
def readBasic : List Char → Option (List Char × List Char)
  | '\\' :: 'u' :: a :: b :: c :: d :: rest => before (hexChar? [a, b, c, d]) (readBasic rest)
  | '\\' :: 'U' :: a :: b :: c :: d :: e :: f :: g :: h :: rest =>
    before (hexChar? [a, b, c, d, e, f, g, h]) (readBasic rest)
  | '\\' :: c :: rest => before (escaped? c) (readBasic rest)
  | '"' :: rest => some ([], rest)
  | c :: rest => before (if isPlain c then some c else none) (readBasic rest)
  | [] => none

/-- A text without escapes on one line. -/
def readLiteral : List Char → Option (List Char × List Char)
  | '\'' :: rest => some ([], rest)
  | c :: rest => before (if isPlain c then some c else none) (readLiteral rest)
  | [] => none

/-- The text without a line break at its start. -/
def dropBreak : List Char → List Char
  | '\n' :: rest => rest
  | '\r' :: '\n' :: rest => rest
  | cs => cs

/-- Is the rest of the line blank, with a line break at its end? -/
def isBlankLine (cs : List Char) : Bool :=
  match cs.dropWhile fun c => c == ' ' || c == '\t' with
  | '\n' :: _ => true
  | '\r' :: '\n' :: _ => true
  | _ => false

/-- A text with escapes on several lines. A backslash at the end of a line takes back all blank
space up to the next other character; `blanks` says that this is going on. -/
def readLongBasic (blanks : Bool) : List Char → Option (List Char × List Char)
  -- Three quotes close the text, and up to two before them belong to it.
  | '"' :: '"' :: '"' :: '"' :: '"' :: '"' :: _ => none
  | '"' :: '"' :: '"' :: '"' :: rest =>
    before (some '"') (readLongBasic false ('"' :: '"' :: '"' :: rest))
  | '"' :: '"' :: '"' :: rest => some ([], rest)
  | '\\' :: 'u' :: a :: b :: c :: d :: rest =>
    before (hexChar? [a, b, c, d]) (readLongBasic false rest)
  | '\\' :: 'U' :: a :: b :: c :: d :: e :: f :: g :: h :: rest =>
    before (hexChar? [a, b, c, d, e, f, g, h]) (readLongBasic false rest)
  | '\\' :: c :: rest =>
    -- A backslash at the end of a line drops the end and all blanks behind it.
    if isBlankLine (c :: rest) then readLongBasic true (c :: rest)
    else before (escaped? c) (readLongBasic false rest)
  | '\r' :: '\n' :: rest =>
    if blanks then readLongBasic true rest else before (some '\n') (readLongBasic false rest)
  | c :: rest =>
    if blanks && (c == ' ' || c == '\t' || c == '\n') then readLongBasic true rest
    else before (if isPlain c || c == '\n' then some c else none) (readLongBasic false rest)
  | [] => none

/-- A text without escapes on several lines. -/
def readLongLiteral : List Char → Option (List Char × List Char)
  | '\'' :: '\'' :: '\'' :: '\'' :: '\'' :: '\'' :: _ => none
  | '\'' :: '\'' :: '\'' :: '\'' :: rest =>
    before (some '\'') (readLongLiteral ('\'' :: '\'' :: '\'' :: rest))
  | '\'' :: '\'' :: '\'' :: rest => some ([], rest)
  | '\r' :: '\n' :: rest => before (some '\n') (readLongLiteral rest)
  | c :: rest => before (if isPlain c || c == '\n' then some c else none) (readLongLiteral rest)
  | [] => none

/-- A text in any form, and what follows it. -/
def readText : List Char → Option (List Char × List Char)
  | '"' :: '"' :: '"' :: rest => readLongBasic false (dropBreak rest)
  | '"' :: rest => readBasic rest
  | '\'' :: '\'' :: '\'' :: rest => readLongLiteral (dropBreak rest)
  | '\'' :: rest => readLiteral rest
  | _ => none

end PolyLex.Toml
