import PolyLex.Scan.Category
import PolyLex.Listing

/-!
# Scanning line by line

A cursor knows where the next character stands and what the scanner is in the middle of. One line
at a time is cut into pieces: first the part that still belongs to a construct opened earlier
(`Cursor.resume`), then, claim by claim, the rest (`Cursor.cutRest`). A construct that spans lines
becomes one piece per line, so every character of the input lies in exactly one piece.

A piece keeps the cursor at its first character; its token is what a listing shows of it.
`Profile.scan` cuts a whole text: it feeds the physical lines to a fresh cursor.
-/

namespace PolyLex

open Text

namespace Scan

/-- The place of the next character and what the scanner is in the middle of. -/
structure Cursor where
  mode : Mode := .normal
  /-- The line of the next character, counted from one. -/
  line : Nat := 1
  /-- The column of the next character, counted from one in characters. -/
  column : Nat := 1
  deriving Repr, DecidableEq, Inhabited

/-- A stretch of the input that becomes one token. -/
structure Piece where
  /-- The cursor at the first character. -/
  start : Cursor
  kind : Kind
  lexeme : List Char
  deriving Repr, DecidableEq, Inhabited

/-- The token of a piece. -/
def Piece.token (x : Piece) : Token :=
  Token.located x.kind x.lexeme x.start.line x.start.column

/-- The text of pieces one after the other. -/
def Piece.joined (xs : List Piece) : List Char := xs.flatMap Piece.lexeme

/-- The winning claim at a place that still has text; where nothing is claimed, one character as
an error. -/
def claimAt (p : Profile) (rest : List Char) : Claim :=
  (longestClaim? Category.all p rest).getD { kind := .error, length := 1 }

/-- Whatever is cut at the head of a text is not empty. -/
theorem length_claimAt_pos (p : Profile) (rest : List Char) : 0 < (claimAt p rest).length := by
  unfold claimAt
  cases h : longestClaim? Category.all p rest with
  | none => exact Nat.one_pos
  | some c => exact length_pos_of_longestClaim? h

namespace Cursor

/-- The cursor behind a lexeme of its line, in the mode that follows it. -/
def skip (cur : Cursor) (lexeme : List Char) (mode : Mode) : Cursor :=
  { cur with mode, column := cur.column + lexeme.length }

/-- The cursor after a line: a line feed at its end starts the next line. -/
def endLine (cur : Cursor) (line : List Char) : Cursor :=
  if line.getLast? = some '\n' then { cur with line := cur.line + 1, column := 1 } else cur

/-- The part of a line that belongs to a construct opened earlier, as a piece, and what follows
it. The construct ends at its close marker, or else takes the whole line and stays open. -/
def continueConstruct (cur : Cursor) (kind : Kind) (escapes : Bool) (close line : List Char) :
    List Piece × Cursor × List Char :=
  match closeEnd? escapes close line with
  | some n => ([⟨cur, kind, line.take n⟩], cur.skip (line.take n) .normal, line.drop n)
  | none => ([⟨cur, kind, line⟩], cur.skip line cur.mode, [])

/-- What a line owes to a construct opened on an earlier line: its piece, the cursor behind it and
the rest of the line. In normal mode a line owes nothing. -/
def resume (p : Profile) (cur : Cursor) (line : List Char) : List Piece × Cursor × List Char :=
  match cur.mode with
  | .normal => ([], cur, line)
  | .blockComment =>
    match p.blockComment with
    | some (_, close) => cur.continueConstruct .comment false close.toList line
    -- Without marks for the mode there is nothing to look for.
    | none => ([], { cur with mode := .normal }, line)
  | .blockString delimiter => cur.continueConstruct .string true delimiter.toList line

/-- The pieces of a text that starts in normal mode, claim by claim, and the cursor behind it. -/
def cutRest (p : Profile) (cur : Cursor) : List Char → List Piece × Cursor
  | [] => ([], cur)
  | c :: cs =>
    -- No claim is empty, so what is left is shorter.
    let claim := claimAt p (c :: cs)
    let lexeme := (c :: cs).take claim.length
    let (pieces, last) := cutRest p (cur.skip lexeme claim.next) ((c :: cs).drop claim.length)
    (⟨cur, claim.kind, lexeme⟩ :: pieces, last)
termination_by rest => rest.length
decreasing_by
  have h := length_claimAt_pos p (c :: cs)
  simp only [List.length_drop, List.length_cons]
  omega

/-- The pieces of one line and the cursor behind it. The line comes with its terminator, if it has
one. -/
def cutLine (p : Profile) (cur : Cursor) (line : List Char) : List Piece × Cursor :=
  let (owed, cur₁, rest) := resume p cur line
  let (pieces, cur₂) := cutRest p cur₁ rest
  (owed ++ pieces, cur₂.endLine line)

/-- The pieces of lines fed one after the other, and the cursor behind the last. -/
def cutLines (p : Profile) (cur : Cursor) : List (List Char) → List Piece × Cursor
  | [] => ([], cur)
  | line :: rest =>
    let (pieces, next) := cutLine p cur line
    let (more, last) := cutLines p next rest
    (pieces ++ more, last)

/-- The tokens of one line and the cursor behind it. -/
def feedLine (p : Profile) (cur : Cursor) (line : List Char) : List Token × Cursor :=
  let (pieces, next) := cutLine p cur line
  (pieces.map Piece.token, next)

/-- The tokens of lines fed one after the other, and the cursor behind the last. -/
def feedLines (p : Profile) (cur : Cursor) : List (List Char) → List Token × Cursor
  | [] => ([], cur)
  | line :: rest =>
    let (tokens, next) := feedLine p cur line
    let (more, last) := feedLines p next rest
    (tokens ++ more, last)

/-- The tokens of lines are those of their pieces. -/
theorem feedLines_eq (p : Profile) : ∀ (cur : Cursor) (lines : List (List Char)),
    feedLines p cur lines =
      ((cutLines p cur lines).1.map Piece.token, (cutLines p cur lines).2)
  | _, [] => rfl
  | cur, line :: rest => by
    simp only [feedLines, feedLine, cutLines, feedLines_eq p _ rest, List.map_append]

end Cursor

end Scan

/-- The pieces of a whole source text. -/
def Profile.pieces (p : Profile) (source : String) : List Scan.Piece :=
  (Scan.Cursor.cutLines p {} (lines source.toList)).1

/-- The listing of a whole source text. -/
def Profile.scan (p : Profile) (source : String) : Listing :=
  Listing.ofTokens (Scan.Cursor.feedLines p {} (lines source.toList)).1

/-- The tokens of a scan are those of its pieces. -/
theorem Profile.tokens_scan (p : Profile) (source : String) :
    (p.scan source).tokens = (p.pieces source).map Scan.Piece.token := by
  rw [scan, Listing.ofTokens, Scan.Cursor.feedLines_eq, pieces]

end PolyLex
