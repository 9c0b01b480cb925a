import PolyLex.Toml.Table
import PolyLex.Toml.Text
import PolyLex.Toml.Word

/-!
# Reading TOML documents

A document is a list of statements, one to a line: headers of tables and keys with their values.
Readers are functions on lists of characters that return what they read and the rest of the text.
Nesting of lists and tables within a value is bounded by a number on which `readValue` is recursive;
the loops over a text end because every round leaves less of it.
-/

namespace PolyLex.Toml

open Json (Value)

/-! ### Between the parts -/

/-- Blank space within a line. -/
def isGap (c : Char) : Bool := c == ' ' || c == '\t'

/-- The text without blank space of its first line at the start. -/
def skipGap (cs : List Char) : List Char := cs.dropWhile isGap

/-- The text behind a comment, if there is one: from a hash to the end of the line. -/
def skipComment : List Char → List Char
  | '#' :: rest => rest.dropWhile isPlain
  | cs => cs

/-- What follows the line break at which the text stands, if it stands at one. -/
def atBreak? : List Char → Option (List Char)
  | '\n' :: rest => some rest
  | '\r' :: '\n' :: rest => some rest
  | _ => none

/-- What follows the line, if nothing but a comment is left of it. -/
def endLine? (cs : List Char) : Option (List Char) :=
  match skipComment (skipGap cs) with
  | [] => some []
  | rest => atBreak? rest

/-- The text without blank space, comments and line breaks at the start. -/
def skipLines (cs : List Char) : List Char :=
  let rest := skipComment (skipGap cs)
  match atBreak? rest with
  | some next => if next.length < cs.length then skipLines next else next
  | none => rest
termination_by cs.length

/-! ### Keys -/

/-- May the character stand in a key without quotes? -/
def isKeyPart (c : Char) : Bool :=
  Text.isBasicLetter c || Text.isDigit c || c == '_' || c == '-'

/-- One part of a key. -/
def readKeyPart : List Char → Option (String × List Char)
  | '"' :: rest => (readBasic rest).map fun (s, rest) => (String.ofList s, rest)
  | '\'' :: rest => (readLiteral rest).map fun (s, rest) => (String.ofList s, rest)
  | cs =>
    let part := cs.takeWhile isKeyPart
    if part.isEmpty then none else some (String.ofList part, cs.dropWhile isKeyPart)

/-- A key: parts with dots between them. The text stands behind the key and its blank space. -/
def readParts (cs : List Char) : Option (List String × List Char) := do
  let (part, rest) ← readKeyPart (skipGap cs)
  match skipGap rest with
  | '.' :: rest =>
    if rest.length < cs.length then
      let (parts, rest) ← readParts rest
      return (part :: parts, rest)
    else none
  | rest => return ([part], rest)
termination_by cs.length

/-- How many parts a key may have, and how deeply values may be nested. -/
def nestingLimit : Nat := 79

/-- A key that is not too long. -/
def readKey (cs : List Char) : Option (List String × List Char) :=
  (readParts cs).filter fun (parts, _) => parts.length ≤ nestingLimit

/-! ### Values -/

/-- The items of a list, behind its opening bracket or a comma. -/
def readItems (item : List Char → Option (Value × List Char)) (cs : List Char) :
    Option (List Value × List Char) :=
  match skipLines cs with
  | ']' :: rest => some ([], rest)
  | start => do
    let (v, rest) ← item start
    match skipLines rest with
    | ',' :: rest =>
      if rest.length < cs.length then
        let (vs, rest) ← readItems item rest
        return (v :: vs, rest)
      else none
    | ']' :: rest => return ([v], rest)
    | _ => none
termination_by cs.length

/-- A key with its value. -/
def readEntry (item : List Char → Option (Value × List Char)) (cs : List Char) :
    Option ((List String × Value) × List Char) := do
  let (key, rest) ← readKey cs
  match rest with
  | '=' :: rest =>
    let (v, rest) ← item (skipGap rest)
    return ((key, v), rest)
  | _ => none

/-- The entries of a table within a line, behind its opening brace or a comma. -/
def readEntries (item : List Char → Option (Value × List Char)) (t : Table) (cs : List Char) :
    Option (Table × List Char) := do
  let ((key, v), rest) ← readEntry item cs
  let t ← t.put v key
  match skipGap rest with
  | ',' :: rest => if rest.length < cs.length then readEntries item t rest else none
  | '\x7d' :: rest => return (t, rest)
  | _ => none
termination_by cs.length

/-- A value, with lists and tables nested at most `depth` deep. -/
def readValue : (depth : Nat) → List Char → Option (Value × List Char)
  | depth, '[' :: rest =>
    match depth with
    | 0 => none
    | depth + 1 => (readItems (readValue depth) rest).map fun (vs, rest) => (.arr vs, rest)
  | depth, '\x7b' :: rest =>
    match depth with
    | 0 => none
    | depth + 1 =>
      match skipGap rest with
      | '\x7d' :: rest => some (.obj [], rest)
      | start => (readEntries (readValue depth) [] start).map fun (t, rest) =>
          (.obj (closeEntries t), rest)
  | _, cs =>
    if cs.head? == some '"' || cs.head? == some '\'' then
      (readText cs).map fun (s, rest) => (.str (String.ofList s), rest)
    else readWord cs

/-! ### Documents -/

/-- What a line says. -/
inductive Statement where
  | blank
  | header (path : List String)
  /-- The header of the next table of a list. -/
  | item (path : List String)
  | entry (key : List String) (v : Value)

/-- What follows some closing brackets. -/
def afterBrackets? (n : Nat) (cs : List Char) : Option (List Char) :=
  if cs.take n = List.replicate n ']' then some (cs.drop n) else none

/-- The statement at the start of a line. -/
def readStatement (cs : List Char) : Option (Statement × List Char) :=
  match cs with
  | '[' :: '[' :: rest => do
    let (path, rest) ← readKey rest
    return (.item path, ← afterBrackets? 2 rest)
  | '[' :: rest => do
    let (path, rest) ← readKey rest
    return (.header path, ← afterBrackets? 1 rest)
  | _ =>
    if (endLine? cs).isSome then some (.blank, cs)
    else do
      let ((key, v), rest) ← readEntry (readValue nestingLimit) cs
      return (.entry key v, rest)

/-- What was read so far: the table of the document and the path of the latest header. -/
structure Draft where
  table : Table := []
  path : List String := []

/-- Add what a line says. -/
def Draft.add (d : Draft) : Statement → Option Draft
  | .blank => some d
  | .header path => (d.table.define path).map fun table => ⟨table, path⟩
  | .item path => (d.table.append path).map fun table => ⟨table, path⟩
  | .entry key v =>
    (d.table.within d.path fun inner => inner.put v key).map fun table => { d with table }

/-- Read line after line. -/
def readLines (d : Draft) (cs : List Char) : Option Draft := do
  let (statement, rest) ← readStatement (skipGap cs)
  let d ← d.add statement
  match ← endLine? rest with
  | [] => return d
  | rest => if rest.length < cs.length then readLines d rest else none
termination_by cs.length

/-- The text without a mark of byte order at the start. -/
def dropOrderMark : List Char → List Char
  | '\uFEFF' :: rest => rest
  | cs => cs

/-- The table that a document stands for, as members in the order of their keys. -/
def parse? (text : String) : Option (List (String × Value)) :=
  (readLines {} (dropOrderMark text.toList)).map fun d => closeEntries d.table

end PolyLex.Toml
