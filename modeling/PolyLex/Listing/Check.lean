import PolyLex.Error
import PolyLex.Listing

/-!
# Checking a listing

Before a listing of the scanner is handed out it is checked once more: its summary has to be the
one drawn up from its tokens, and every token needs a place and a lexeme.
-/

namespace PolyLex.Listing

/-- The place in the list of the first token without a place or a lexeme. -/
def firstIncomplete? (tokens : List Token) : Option Nat :=
  tokens.findIdx? fun t => !t.isLocated || t.lexeme.isEmpty

/-- The first demand that a listing fails to meet. -/
def check (l : Listing) : Except Violation Unit :=
  if l.summary ≠ Summary.ofTokens l.tokens then
    .error ⟨.consistency, some "summary", "summary does not match token counts"⟩
  else match firstIncomplete? l.tokens with
    | some i =>
      .error ⟨.consistency, some ("tokens[" ++ toString i ++ "]"),
        "local token lacks a position or lexeme"⟩
    | none => .ok ()

end PolyLex.Listing
