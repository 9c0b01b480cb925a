import PolyLex.Scan.Cursor

/-!
# Scanning by byte offsets

A text in memory is its UTF-8 encoding, and a scanner that works on it in place counts in bytes: it
cuts lines at byte offsets and reads single bytes of numbers. A cut is a fault if it lies outside
the text or inside a character, and so is a byte read outside the text.

This module is the scanner of `Scan.Cursor` written in that way, every cut and every read checked.
Nothing here assumes that an offset fits: that no fault arises, and that the pieces are those of
`Cursor.cutLines`, is left to be proved.
-/

namespace PolyLex.Scan.Bytes

open Text

/-- What is wrong with an offset. -/
inductive Fault where
  | outside
  | insideCharacter
  deriving Repr, DecidableEq, Inhabited

/-! ### Texts in bytes -/

/-- How many bytes a text takes. -/
def size : List Char → Nat
  | [] => 0
  | c :: cs => c.utf8Size + size cs

/-- The parts of a text before and after a byte offset. -/
def cut : Nat → List Char → Except Fault (List Char × List Char)
  | 0, cs => .ok ([], cs)
  | _ + 1, [] => .error .outside
  | n + 1, c :: cs =>
    if n + 1 < c.utf8Size then .error .insideCharacter
    else do
      let (front, back) ← cut (n + 1 - c.utf8Size) cs
      return (c :: front, back)

/-- The part of a text before a byte offset. -/
def upTo (n : Nat) (cs : List Char) : Except Fault (List Char) := do return (← cut n cs).1

/-- The part of a text from a byte offset on. -/
def onFrom (n : Nat) (cs : List Char) : Except Fault (List Char) := do return (← cut n cs).2

/-- How many bytes the leading characters of class `q` take. -/
def runSize (q : Char → Bool) : List Char → Nat
  | [] => 0
  | c :: cs => if q c then c.utf8Size + runSize q cs else 0

def encode (cs : List Char) : List UInt8 := cs.flatMap String.utf8EncodeChar

def byteAt (bs : List UInt8) (i : Nat) : Except Fault UInt8 :=
  match bs[i]? with
  | some b => .ok b
  | none => .error .outside

/-- Is the byte an ASCII character of class `q`? -/
def isAsciiOf (q : Char → Bool) (b : UInt8) : Bool := b < 128 && q (Char.ofNat b.toNat)

/-- How many bytes from an index on are ASCII characters of class `q`. -/
def runFrom (q : Char → Bool) (bs : List UInt8) (start : Nat) : Except Fault Nat :=
  if start ≤ bs.length then .ok ((bs.drop start).takeWhile (isAsciiOf q)).length
  else .error .outside

/-! ### Close markers -/

/-- The offset just past the first close marker, for the characters that are left at offset `i` of
a text. -/
def closeFrom (escapes : Bool) (close text : List Char) (i : Nat) :
    List Char → Except Fault (Option Nat)
  | [] => .ok none
  | c :: cs =>
    if escapes && c == '\\' then
      -- A backslash takes the next character with it.
      match cs with
      | [] => .ok none
      | d :: rest => closeFrom escapes close text (i + c.utf8Size + d.utf8Size) rest
    else do
      let tail ← onFrom i text
      if startsWith close tail then return some (i + size close)
      else closeFrom escapes close text (i + c.utf8Size) cs

/-- The offset just past the first close marker of a text. -/
def closeEnd? (escapes : Bool) (close text : List Char) : Except Fault (Option Nat) :=
  closeFrom escapes close text 0 text

/-! ### Claims

Here the length of a claim counts bytes. -/

/-- A construct that may span lines. -/
def openConstruct (kind : Kind) (escapes : Bool) (lead close rest body : List Char) (mode : Mode) :
    Except Fault Claim := do
  match ← closeEnd? escapes close body with
  | some n => return { kind, length := size lead + n }
  | none => return { kind, length := size rest, next := mode }

def blockCommentClaim? (p : Profile) (rest : List Char) : Except Fault (Option Claim) :=
  match p.blockComment with
  | none => .ok none
  | some (lead, close) =>
    match after? lead.toList rest with
    | none => .ok none
    | some body =>
      some <$> openConstruct .comment false lead.toList close.toList rest body .blockComment

/-- A comment to the end of the line. -/
def lineCommentClaim? (p : Profile) (rest : List Char) : Option Claim :=
  if p.lineComments.any fun marker => startsWith marker.toList rest then
    some { kind := .comment, length := size (content rest) }
  else none

def blockStringClaim? (p : Profile) (rest : List Char) : Except Fault (Option Claim) :=
  match p.blockStrings.find? fun d => startsWith d.toList rest with
  | none => .ok none
  | some delimiter => do
    let body ← onFrom (size delimiter.toList) rest
    some <$> openConstruct .string true delimiter.toList delimiter.toList rest body
      (.blockString delimiter)

/-- A string or character literal within one line: the line without its terminator is cut behind
the quote. -/
def quotedClaim? (p : Profile) (rest : List Char) : Except Fault (Option Claim) :=
  match rest.head? with
  | none => .ok none
  | some quote =>
    match Category.quoteKind? p quote with
    | none => .ok none
    | some kind => do
      let line ← upTo (size (content rest)) rest
      let body ← onFrom quote.utf8Size line
      match ← closeEnd? true [quote] body with
      | some n => return some { kind, length := quote.utf8Size + n }
      -- A quote that nothing closes takes its line up to the terminator.
      | none => return some { kind, length := size line }

def hexSize (bs : List UInt8) : Except Fault Nat :=
  if 2 < bs.length then do
    let zero ← byteAt bs 0
    let mark ← byteAt bs 1
    if isAsciiOf (· == '0') zero && isAsciiOf (fun c => c == 'x' || c == 'X') mark then
      -- Without a digit behind it the mark does not belong to the number.
      let n ← runFrom isHexDigit bs 2
      return if n = 0 then 0 else n + 2
    else return 0
  else return 0

/-- How many bytes the fraction at an index takes. -/
def fractionSize (bs : List UInt8) (start : Nat) : Except Fault Nat :=
  match bs[start]? with
  | none => return 0
  | some b =>
    if isAsciiOf (· == '.') b then do
      -- Without a digit behind it the point does not belong to the number.
      let n ← runFrom isDigit bs (start + 1)
      return if n = 0 then 0 else n + 1
    else return 0

def numberSize (bs : List UInt8) : Except Fault Nat := do
  let hex ← hexSize bs
  if hex = 0 then
    let whole ← runFrom isDigit bs 0
    let fraction ← fractionSize bs whole
    return whole + fraction
  else return hex

def numberClaim? (rest : List Char) : Except Fault (Option Claim) := do
  let n ← numberSize (encode rest)
  return if n = 0 then none else some { kind := .number, length := n }

/-- A word. Its kind is that of the text that is cut off. -/
def wordClaim? (p : Profile) (rest : List Char) : Except Fault (Option Claim) :=
  match rest with
  | [] => .ok none
  | c :: cs =>
    if p.isWordStart c then do
      let n := c.utf8Size + runSize p.isWordPart cs
      let word ← upTo n rest
      return some { kind := Category.wordKind p word, length := n }
    else .ok none

def operatorClaim? (p : Profile) (rest : List Char) : Option Claim :=
  (p.operators.find? fun op => startsWith op.toList rest).map fun op =>
    { kind := .operator, length := op.utf8ByteSize }

def singleClaim? (kind : Kind) (table : List Char) (rest : List Char) : Option Claim := do
  let c ← rest.head?
  if table.contains c then return { kind, length := c.utf8Size } else none

def whitespaceClaim? (rest : List Char) : Option Claim :=
  some { kind := .whitespace, length := runSize isBlank rest }

/-- What a category claims at the start of a text. -/
def claim? (p : Profile) (rest : List Char) : Category → Except Fault (Option Claim)
  | .blockComment => blockCommentClaim? p rest
  | .lineComment => .ok (lineCommentClaim? p rest)
  | .blockString => blockStringClaim? p rest
  | .quoted => quotedClaim? p rest
  | .number => numberClaim? rest
  | .word => wordClaim? p rest
  | .operator => .ok (operatorClaim? p rest)
  | .punctuation => .ok (singleClaim? .punctuation p.punctuation rest)
  | .delimiter => .ok (singleClaim? .delimiter p.delimiters rest)
  | .whitespace => .ok (whitespaceClaim? rest)

/-- The first of the longest claims, counted on from the best so far. -/
def longestClaim? (p : Profile) (rest : List Char) (best : Option Claim) :
    List Category → Except Fault (Option Claim)
  | [] => .ok best
  | category :: categories => do
    let claim ← claim? p rest category
    longestClaim? p rest (Claim.longer best claim) categories

/-- The winning claim at a place that still has text; where nothing is claimed, the bytes of one
character as an error. -/
def claimAt (p : Profile) (rest : List Char) : Except Fault Claim := do
  match ← longestClaim? p rest none Category.all with
  | some claim => return claim
  | none => return { kind := .error, length := (rest.head?.map Char.utf8Size).getD 1 }

theorem length_pos_of_longestClaim? {p : Profile} {rest : List Char} {c : Claim} :
    ∀ {categories : List Category} {best : Option Claim}, (∀ b ∈ best, 0 < b.length) →
      longestClaim? p rest best categories = .ok (some c) → 0 < c.length
  | [], best, hbest, h => by
    cases h
    exact hbest c rfl
  | category :: categories, best, hbest, h => by
    unfold longestClaim? at h
    cases hc : claim? p rest category with
    | error e => rw [hc] at h; cases h
    | ok claim =>
      rw [hc] at h
      refine length_pos_of_longestClaim? (fun b hb => ?_) h
      simp only [Claim.longer] at hb
      split at hb
      · exact hbest b hb
      · split at hb
        · next hlt => cases hb; omega
        · exact hbest b hb

/-- The winning claim takes at least one byte, so a line is cut in finitely many steps. -/
theorem length_pos_of_claimAt {p : Profile} {rest : List Char} {c : Claim}
    (h : claimAt p rest = .ok c) : 0 < c.length := by
  unfold claimAt at h
  cases hl : longestClaim? p rest none Category.all with
  | error e => rw [hl] at h; cases h
  | ok claim =>
    rw [hl] at h
    cases claim with
    | some claim =>
      cases h
      exact length_pos_of_longestClaim? (by simp) hl
    | none =>
      cases h
      cases rest with
      | nil => exact Nat.one_pos
      | cons d ds => exact Char.utf8Size_pos d

/-! ### Lines -/

/-- The part of a line that belongs to a construct opened earlier, the cursor behind it, and its
end. -/
def continueConstruct (cur : Cursor) (kind : Kind) (escapes : Bool) (close line : List Char) :
    Except Fault (List Piece × Cursor × Nat) := do
  match ← closeEnd? escapes close line with
  | some n =>
    let lexeme ← upTo n line
    return ([⟨cur, kind, lexeme⟩], cur.skip lexeme .normal, n)
  | none => return ([⟨cur, kind, line⟩], cur.skip line cur.mode, size line)

/-- What a line owes to a construct opened on an earlier line, and the offset at which normal
scanning goes on. -/
def resume (p : Profile) (cur : Cursor) (line : List Char) :
    Except Fault (List Piece × Cursor × Nat) :=
  match cur.mode with
  | .normal => .ok ([], cur, 0)
  | .blockComment =>
    match p.blockComment with
    | some (_, close) => continueConstruct cur .comment false close.toList line
    | none => .ok ([], { cur with mode := .normal }, 0)
  | .blockString delimiter => continueConstruct cur .string true delimiter.toList line

/-- The pieces of a line from an offset on, claim by claim, and the cursor behind it. -/
def cutFrom (p : Profile) (cur : Cursor) (line : List Char) (pos : Nat) :
    Except Fault (List Piece × Cursor) :=
  if pos < size line then
    match onFrom pos line with
    | .error e => .error e
    | .ok rest =>
      match _h : claimAt p rest with
      | .error e => .error e
      | .ok claim => do
        let lexeme ← upTo claim.length rest
        let (pieces, last) ←
          cutFrom p (cur.skip lexeme claim.next) line (pos + claim.length)
        return (⟨cur, claim.kind, lexeme⟩ :: pieces, last)
  else .ok ([], cur)
termination_by size line - pos
decreasing_by
  have := length_pos_of_claimAt _h
  omega

/-- The pieces of one line and the cursor behind it. -/
def cutLine (p : Profile) (cur : Cursor) (line : List Char) :
    Except Fault (List Piece × Cursor) := do
  let (owed, cur₁, pos) ← resume p cur line
  let (pieces, cur₂) ← cutFrom p cur₁ line pos
  return (owed ++ pieces, cur₂.endLine line)

/-- The pieces of lines fed one after the other, and the cursor behind the last. -/
def cutLines (p : Profile) (cur : Cursor) :
    List (List Char) → Except Fault (List Piece × Cursor)
  | [] => .ok ([], cur)
  | line :: rest => do
    let (pieces, next) ← cutLine p cur line
    let (more, last) ← cutLines p next rest
    return (pieces ++ more, last)

/-- The tokens of lines fed one after the other, and the cursor behind the last. -/
def feedLines (p : Profile) (cur : Cursor) (lines : List (List Char)) :
    Except Fault (List Token × Cursor) := do
  let (pieces, last) ← cutLines p cur lines
  return (pieces.map Piece.token, last)

end PolyLex.Scan.Bytes
