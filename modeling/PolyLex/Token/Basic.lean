import PolyLex.Token.Kind

/-!
# Tokens

A token is a classified stretch of source text. Line and column count from one, the column in
characters. Tokens of the scanner always have both; a remote listing may leave them out.
-/

namespace PolyLex

/-- A classified stretch of source text. -/
structure Token where
  kind : Kind
  /-- The text exactly as it stands in the source. -/
  lexeme : String
  line : Option Nat := none
  column : Option Nat := none
  deriving Repr, DecidableEq, Inhabited

namespace Token

/-- A token at a known place. -/
def located (kind : Kind) (lexeme : List Char) (line column : Nat) : Token :=
  ⟨kind, String.ofList lexeme, some line, some column⟩

/-- Does the token know its place? -/
def isLocated (t : Token) : Bool := t.line.isSome && t.column.isSome

end Token

/-- The text that a list of tokens makes up. -/
def Token.joined (tokens : List Token) : String :=
  String.join (tokens.map Token.lexeme)

end PolyLex
