import PolyLex.Error
import PolyLex.Json.Decode
import PolyLex.Json.Printer
import PolyLex.Listing

/-!
# Listings as documents

A listing is written as an object with its tokens and its summary; a token as an object with its
kind, its lexeme and, where known, its line and its column, which is called position there. Reading
such a document back gives the listing; names of kinds are read as kinds.
-/

namespace PolyLex

open Json

/-! ### Writing -/

/-- A token as a value. A place that is not known is left out. -/
def Token.toJson (t : Token) : Value :=
  .obj ([("type", .str t.kind.name), ("value", .str t.lexeme)] ++
    (t.line.map fun n => ("line", Value.nat n)).toList ++
    (t.column.map fun n => ("position", Value.nat n)).toList)

def Summary.toJson (s : Summary) : Value := .obj (s.entries.map fun e => (e.1, Value.nat e.2))

namespace Listing

def toJson (l : Listing) : Value :=
  .obj [("tokens", .arr (l.tokens.map Token.toJson)), ("summary", l.summary.toJson)]

def document (l : Listing) : String := l.toJson.pretty

end Listing

/-! ### Reading -/

def Token.ofJson? (v : Value) : Option Token := do
  let [kind, lexeme, line, column] ← record? ["type", "value", "line", "position"] v | none
  let kind ← required? str? kind
  let lexeme ← required? str? lexeme
  let line ← fieldOr none (nullable? Value.nat?) line
  let column ← fieldOr none (nullable? Value.nat?) column
  return { kind := Kind.ofName kind, lexeme, line, column }

/-- The summary that a value stands for. Names are taken as they are. -/
def Summary.ofJson? (v : Value) : Option Summary := do
  let members ← v.members?
  let pairs ← members.mapM fun m => m.2.nat?.map fun n => (m.1, n)
  return Summary.ofPairs pairs

namespace Listing

def ofJson? (v : Value) : Option Listing := do
  let [tokens, summary] ← record? ["tokens", "summary"] v | none
  let tokens ← required? (fun
    | .arr items => items.mapM Token.ofJson?
    | _ => none) tokens
  let summary ← required? Summary.ofJson? summary
  return ⟨tokens, summary⟩

def ofDocument (text : String) : Except Error Listing :=
  match readRecord text with
  | .error fault => .error (.json (.fault fault))
  | .ok v =>
    match ofJson? v with
    | some l => .ok l
    | none => .error (.json .shape)

end Listing

end PolyLex
