import PolyLex.Token.Summary

/-!
# Listings

A listing is what every analysis hands out: tokens in source order and a summary of their kinds.
The scanner's listings draw the summary up from the tokens (`Listing.ofTokens`); a remote listing
may come with a summary of its own.
-/

namespace PolyLex

/-- Tokens in source order with counts per kind. -/
structure Listing where
  tokens : List Token
  summary : Summary
  deriving DecidableEq, Inhabited

namespace Listing

/-- The listing whose summary is drawn up from its tokens. -/
def ofTokens (tokens : List Token) : Listing := ⟨tokens, Summary.ofTokens tokens⟩

/-- The listing that stands in when no analysis worked: one error token that holds a message. -/
def degraded (message : String) : Listing :=
  ofTokens [{ kind := .error, lexeme := message }]

/-- The count of a kind, zero if the summary lacks it. -/
def count (l : Listing) (kind : Kind) : Nat := l.summary.count kind.name

/-- The text that the tokens make up. -/
def source (l : Listing) : String := Token.joined l.tokens

end Listing

end PolyLex
