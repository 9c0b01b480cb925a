import PolyLex.Error
import PolyLex.Json.Decode
import PolyLex.Listing

/-!
# What a remote listing has to look like

A remote payload is accepted if it is an object with an array of tokens and, possibly, an object of
counts. A token needs a kind that is not blank and a lexeme; its line and column, where given, are
positive whole numbers. The first demand that is not met, in the order in which the parts are named
here, is the one reported.

A summary is taken as reported, with the names of known kinds brought to one spelling and the
counts of equal names added. A sum of counts that is no machine word is a fault: reading breaks off
there, and neither accepts nor refuses the payload. That a summary disagrees with the tokens is no
reason to refuse it; `Accepted.consistent` says whether it agrees.
-/

namespace PolyLex.Remote

open Json

/-- A remote listing that met all demands. -/
structure Accepted where
  listing : Listing
  /-- Does the reported summary, if any, agree with the tokens? -/
  consistent : Bool
  deriving DecidableEq

/-- The value under a name of an object. -/
def member? (members : List (String × Value)) (name : String) : Option Value :=
  Keyed.find? name members

/-- The name of a token of the list. -/
def tokenField (i : Nat) : String := "tokens[" ++ toString i ++ "]"

/-- A line or column: a positive whole number, or nothing. -/
def readPosition (members : List (String × Value)) (key field : String) :
    Except Violation (Option Nat) :=
  match member? members key with
  | none | some .null => .ok none
  | some v =>
    match v.nat? with
    | some (n + 1) => .ok (some (n + 1))
    | _ => .error (.malformed (field ++ "." ++ key)
        ("'" ++ key ++ "' must be a positive integer"))

/-- The kind of a token. -/
def readKind (members : List (String × Value)) (field : String) : Except Violation Kind :=
  match member? members "type" with
  | some (.str name) =>
    if Text.isBlankText name then
      .error (.malformed (field ++ ".type") "'type' must be a non-empty string")
    else .ok (Kind.ofName name)
  | some _ => .error (.malformed (field ++ ".type") "'type' must be a non-empty string")
  | none => .error (.missing (field ++ ".type"))

/-- The lexeme of a token. -/
def readLexeme (members : List (String × Value)) (field : String) : Except Violation String :=
  match member? members "value" with
  | some (.str s) => .ok s
  | some _ => .error (.malformed (field ++ ".value") "'value' must be a string")
  | none => .error (.missing (field ++ ".value"))

/-- The token at a place of the list. -/
def readToken (i : Nat) (v : Value) : Except Violation Token :=
  match v.members? with
  | none => .error (.malformed (tokenField i) "token must be an object")
  | some members => do
    let kind ← readKind members (tokenField i)
    let lexeme ← readLexeme members (tokenField i)
    let line ← readPosition members "line" (tokenField i)
    let column ← readPosition members "position" (tokenField i)
    return { kind, lexeme, line, column }

/-- The tokens of the list from a place on. -/
def readTokens (i : Nat) : List Value → Except Violation (List Token)
  | [] => .ok []
  | v :: rest => do
    let t ← readToken i v
    let ts ← readTokens (i + 1) rest
    return t :: ts

/-- The range of a count. -/
def countRange : Nat := 0x10000000000000000

/-- The sum of two counts. -/
def addCounts (m n : Nat) : Except ArithmeticFault Nat :=
  if m + n < countRange then .ok (m + n) else .error .overflow

/-- Add the counts of an object to a summary, under the spelling of the kinds they name. -/
def readCounts (summary : Summary) : List (String × Value) → Except (Stop Violation) Summary
  | [] => .ok summary
  | (name, v) :: rest =>
    match v.nat? with
    | none => .error (.failure (.malformed ("summary." ++ name)
        "summary counts must be non-negative integers"))
    | some n =>
      -- All spellings of a kind count for the kind.
      let kind := (Kind.ofName name).name
      match addCounts (summary.count kind) n with
      | .ok total => readCounts (summary.insert kind total) rest
      | .error fault => .error (.fault fault)

/-- The summary of a payload and whether it agrees with the tokens. Without one the summary is
drawn up from the tokens. -/
def readSummary (members : List (String × Value)) (tokens : List Token) :
    Except (Stop Violation) (Summary × Bool) :=
  let recounted := Summary.ofTokens tokens
  match member? members "summary" with
  | none | some .null => .ok (recounted, true)
  | some (.obj counts) => do
    let reported ← readCounts ∅ counts
    return (reported, reported = recounted)
  | some _ => .error (.failure (.malformed "summary" "'summary' must be an object"))

/-- The listing of a payload, whose objects are finite maps. -/
def accept (v : Value) : Except (Stop Violation) Accepted :=
  match v.members? with
  | none => .error (.failure ⟨.format, none, "Result must be a JSON object"⟩)
  | some members =>
    match member? members "tokens" with
    | some (.arr items) => do
      let tokens ← (readTokens 0 items).mapError .failure
      let (summary, consistent) ← readSummary members tokens
      return ⟨⟨tokens, summary⟩, consistent⟩
    | some _ => .error (.failure (.malformed "tokens" "'tokens' must be an array"))
    | none => .error (.failure (.missing "tokens"))

end PolyLex.Remote
