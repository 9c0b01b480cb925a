import PolyLex.Listing
import PolyLex.Text.Quoted

/-!
# Listings as tables

For people a listing is shown as a table, one row per token, and a summary, one line per kind and
one for the total. Lexemes are quoted so that white space can be seen; names of kinds stand as
they are.
-/

namespace PolyLex

open Text

def kindWidth : Nat := 12

def placeWidth : Nat := 9

/-- Three cells in a row. -/
def tableRow (place kind value : String) : String :=
  padRight placeWidth place ++ " " ++ padRight kindWidth kind ++ " " ++ value

def tableHeader : String := tableRow "LINE:COL" "TYPE" "VALUE"

namespace Token

/-- Where a token stands, as far as it is known; a column without a line is not shown. -/
def place (t : Token) : String :=
  match t.line, t.column with
  | some line, some column => toString line ++ ":" ++ toString column
  | some line, none => toString line
  | none, _ => "-"

/-- The row of a token. -/
def row (t : Token) : String := tableRow t.place t.kind.name (quote t.lexeme)

end Token

/-- A name with its count. -/
def countLine (name : String) (count : Nat) : String :=
  padRight kindWidth name ++ " " ++ padLeft 6 (toString count)

/-- The lines of the summary: every kind in the order of the names, then the number of tokens. -/
def Listing.summaryLines (l : Listing) : List String :=
  l.summary.entries.map (fun e => countLine e.1 e.2) ++ [countLine "total" l.tokens.length]

end PolyLex
