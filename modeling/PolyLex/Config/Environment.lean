import PolyLex.Config.Basic
import PolyLex.Toml.Text
import PolyLex.Json.Value

/-!
# Settings from the environment

A variable whose name starts with `LEXISCAN_`, in any case, is a setting: the rest of the name, with
two underscores between its parts, is the path of the setting. Its text is read as a value where it
can be: a truth value, a number, a text between quotes, a list, a table. Any other text stands for
itself.
-/

namespace PolyLex.Environment

open Json (Value)
open Numeric Text

/-- The variables of an environment, in their order. -/
abbrev Variables := List (String × String)

/-- The text of a variable. -/
def find? (name : String) (vars : Variables) : Option String := Keyed.find? name vars

/-- Set a variable, or remove it. A new one comes last. -/
def set (name : String) (value : Option String) (vars : Variables) : Variables :=
  match value with
  | none => vars.filter fun v => v.1 ≠ name
  | some text =>
    if vars.any fun v => v.1 = name then
      vars.map fun v => if v.1 = name then (name, text) else v
    else vars ++ [(name, text)]

/-! ### Names -/

/-- How the names of settings start. -/
def lead : List Char := "lexiscan_".toList

/-- The text with a dot for every two underscores. -/
def dotted : List Char → List Char
  | '_' :: '_' :: cs => '.' :: dotted cs
  | c :: cs => c :: dotted cs
  | [] => []

/-- The path of the setting that a variable names, in small letters. -/
def path? (name : String) : Option (List String) := do
  let rest ← after? lead ((trimBy isBlank name.toList).map lowerAscii)
  let parts := splitBy (· == '.') (trimBy isBlank (dotted rest))
  if parts.any List.isEmpty then none else some (parts.map String.ofList)

/-! ### Values -/

/-- The white space that separates. -/
def isGap (c : Char) : Bool := c == ' ' || c == '\t' || c == '\n' || c == '\r' || c == '\x0c'

/-- The text without white space at its start. -/
def skipGap (cs : List Char) : List Char := cs.dropWhile isGap

/-- Does the character go on with a plain word? -/
def isWordPart (c : Char) : Bool := !List.contains [',', '\x7b', '\x7d', '[', ']'] c

/-- The number that decimal digits make up, if there are digits and nothing else. -/
def digits? (cs : List Char) : Option Nat :=
  if !cs.isEmpty && cs.all isDigit then
    some (cs.foldl (fun n c => 10 * n + (c.toNat - '0'.toNat)) 0)
  else none

/-- A sign, true for minus, and what follows it. -/
def splitSign : List Char → Bool × List Char
  | '-' :: rest => (true, rest)
  | '+' :: rest => (false, rest)
  | cs => (false, cs)

/-- A whole number of 64 bits, without a sign or with one. -/
def whole? (cs : List Char) : Option Int := do
  let (negative, rest) := splitSign cs
  let n ← digits? rest
  if negative then if n ≤ 0x8000000000000000 then some (-n) else none
  else if n < 0x10000000000000000 then some n else none

/-- A number with a point. Digits may be missing on one side of it. -/
def real? (cs : List Char) : Option Binary := do
  let (negative, rest) := splitSign cs
  let isMark := fun c : Char => c == 'e' || c == 'E'
  let mantissa := rest.takeWhile (!isMark ·)
  let exponent ← match rest.dropWhile (!isMark ·) with
    | [] => some (0 : Int)
    | _ :: e =>
      let (minus, e) := splitSign e
      (digits? e).map fun n => if minus then -(n : Int) else n
  let whole := mantissa.takeWhile (· ≠ '.')
  match mantissa.dropWhile (· ≠ '.') with
  | [] => none
  | _ :: places =>
    let n ← digits? (whole ++ places)
    return Binary.ofDecimal .double negative n (exponent - places.length)

/-- The value of a plain word. -/
def word (cs : List Char) : Value :=
  match real? cs with
  | some x => .real .double x
  | none =>
    match whole? cs with
    | some n => .int n
    | none => .str (String.ofList cs)

/-- May the character stand in a key without quotes? -/
def isKeyPart (c : Char) : Bool := isBasicLetter c || isDigit c || c == '_' || c == '-'

def readKey : List Char → Option (String × List Char)
  | '"' :: rest => (Toml.readBasic rest).map fun (s, rest) => (String.ofList s, rest)
  | cs =>
    let key := cs.takeWhile isKeyPart
    if key.isEmpty then none else some (String.ofList key, cs.dropWhile isKeyPart)

/-- An entry of a table: a key and its value. -/
def readEntry (item : List Char → Option (Value × List Char)) (cs : List Char) :
    Option ((String × Value) × List Char) := do
  let (key, rest) ← readKey (skipGap cs)
  let rest ← after? ['='] (skipGap rest)
  let (v, rest) ← item rest
  return ((key, v), rest)

/-- What is read between two marks, with commas between, the last of which may be followed by
nothing. The text stands behind the opening mark or a comma. -/
def readList {α : Type} (close : Char) (item : List Char → Option (α × List Char))
    (cs : List Char) : Option (List α × List Char) :=
  match after? [close] cs with
  | some rest => some ([], rest)
  | none => do
    let (a, rest) ← item cs
    match after? [','] rest with
    | some next =>
      if next.length < cs.length then
        let (more, rest) ← readList close item next
        return (a :: more, rest)
      else none
    | none => return ([a], ← after? [close] rest)
termination_by cs.length

/-- A value, with lists and tables nested at most `depth` deep. White space around it is read
along. -/
def readValue (depth : Nat) (cs : List Char) : Option (Value × List Char) := do
  let (v, rest) ← match skipGap cs with
    | 't' :: 'r' :: 'u' :: 'e' :: rest => some (Value.bool true, rest)
    | 'f' :: 'a' :: 'l' :: 's' :: 'e' :: rest => some (.bool false, rest)
    | '"' :: rest => (Toml.readBasic rest).map fun (s, rest) => (.str (String.ofList s), rest)
    -- Single quotes hold one character, not a text.
    | '\'' :: c :: '\'' :: rest => some (.str (String.singleton c), rest)
    | '\'' :: _ => none
    | '[' :: rest =>
      match depth with
      | 0 => none
      | depth + 1 => (readList ']' (readValue depth) rest).map fun (vs, rest) => (.arr vs, rest)
    | '\x7b' :: rest =>
      match depth with
      | 0 => none
      | depth + 1 => (readList '\x7d' (readEntry (readValue depth)) rest).map fun (es, rest) =>
          (.obj (Keyed.ofList es), rest)
    -- Anything else is one bare word.
    | start => some (word (trimBy isBlank (start.takeWhile isWordPart)), start.dropWhile isWordPart)
  return (v, skipGap rest)
termination_by depth

/-- The value of a text: what can be read of it as a whole, or the text itself. -/
def value (text : String) : Value :=
  match readValue text.length text.toList with
  | some (v, []) => v
  | _ => .str text

/-! ### Settings -/

/-- The settings of some variables: paths and values, in the order of the variables. -/
def settings (vars : Variables) : List (List String × Value) :=
  vars.filterMap fun v => (path? v.1).map fun path => (path, value v.2)

end PolyLex.Environment
