import PolyLex.Json.Printer
import PolyLex.Language.Basic
import PolyLex.Text.Quoted

/-!
# The overview of languages

One row per language: its identifier and name, its markers and how many words it reserves. The
overview is shown as a table or as a document.
-/

namespace PolyLex.Language

open Json Text

/-- A row of the overview. -/
structure Row where
  id : String
  name : String
  lineComment : String
  blockComment : Option String
  blockStrings : List String
  keywords : Nat
  deriving Repr, DecidableEq

def row (l : Language) : Row :=
  let p := l.profile
  { id := l.id
    name := l.displayName
    lineComment := " ".intercalate p.lineComments
    blockComment := p.blockComment.map fun (lead, close) => lead ++ " " ++ close
    blockStrings := p.blockStrings
    keywords := p.keywordCount }

/-- All rows, in the order in which languages are shown. -/
def rows : List Row := all.map row

def Row.toJson (r : Row) : Value :=
  .obj [("id", .str r.id), ("name", .str r.name), ("line_comment", .str r.lineComment),
    ("block_comment", .strOrNull r.blockComment),
    ("block_strings", .arr (r.blockStrings.map Value.str)), ("keywords", .nat r.keywords)]

/-- The overview as a document. -/
def overviewDocument : String := (Value.arr (rows.map Row.toJson)).pretty

def tableLine (id name line block strings keywords : String) : String :=
  padRight 12 id ++ " " ++ padRight 12 name ++ " " ++ padRight 8 line ++ " " ++
    padRight 8 block ++ " " ++ padRight 10 strings ++ " " ++ keywords

/-- The line of a row; what a language lacks is shown as a dash. -/
def Row.line (r : Row) : String :=
  tableLine r.id r.name r.lineComment (r.blockComment.getD "-")
    (if r.blockStrings.isEmpty then "-" else " ".intercalate r.blockStrings)
    (toString r.keywords)

/-- The overview as a table. -/
def overviewLines : List String :=
  tableLine "ID" "NAME" "LINE" "BLOCK" "STRINGS" "KEYWORDS" :: rows.map Row.line

end PolyLex.Language
