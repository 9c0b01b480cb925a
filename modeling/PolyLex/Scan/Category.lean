import PolyLex.Language.Profile
import PolyLex.Token.Kind
import PolyLex.Scan.Close

/-!
# The ten categories of lexemes

At every place of a line ten categories may claim a stretch of text, each by a rule of its own:
`Category.claim?` is the rule table. The longest claim wins, and of equally long ones the claim of
the category that stands first in `Category.all`. A place that no category claims becomes an error
token of one character (`Profile.claim`).

A claim is given by its length in characters. All claims at one place are openings of the same
text, so comparing lengths in characters or in bytes comes to the same.
-/

namespace PolyLex.Scan

open Text

/-- What the scanner is in the middle of when a line starts. -/
inductive Mode where
  | normal
  /-- A comment that an earlier line opened. -/
  | blockComment
  /-- A string that an earlier line opened with this delimiter. -/
  | blockString (delimiter : String)
  deriving Repr, DecidableEq, Inhabited

/-- A stretch of text that a category claims. -/
structure Claim where
  kind : Kind
  /-- How many characters are claimed. -/
  length : Nat
  /-- What the scanner is in the middle of after the stretch. -/
  next : Mode := .normal
  deriving Repr, DecidableEq, Inhabited

/-- The rules by which text is claimed. -/
inductive Category where
  | blockComment
  | lineComment
  | blockString
  | quoted
  | number
  | word
  | operator
  | punctuation
  | delimiter
  | whitespace
  deriving Repr, DecidableEq, Inhabited

namespace Category

/-- All categories; of equally long claims the first in this order wins. -/
def all : List Category :=
  [blockComment, lineComment, blockString, quoted, number, word, operator, punctuation,
   delimiter, whitespace]

/-! ### Comments and strings -/

/-- A construct that may span lines: through its close marker, or all of the text if that is
missing from it, in which case the next line goes on with it. -/
def openConstruct (kind : Kind) (escapes : Bool) (lead close rest body : List Char)
    (mode : Mode) : Claim :=
  match closeEnd? escapes close body with
  | some n => { kind, length := lead.length + n }
  | none => { kind, length := rest.length, next := mode }

def blockCommentClaim? (p : Profile) (rest : List Char) : Option Claim := do
  let (lead, close) ← p.blockComment
  let body ← after? lead.toList rest
  return openConstruct .comment false lead.toList close.toList rest body .blockComment

/-- A comment to the end of the line, whose terminator it leaves. -/
def lineCommentClaim? (p : Profile) (rest : List Char) : Option Claim :=
  if p.lineComments.any fun marker => startsWith marker.toList rest then
    some { kind := .comment, length := (content rest).length }
  else none

/-- A string that may span lines; of several delimiters that fit the first listed counts. -/
def blockStringClaim? (p : Profile) (rest : List Char) : Option Claim := do
  let delimiter ← p.blockStrings.find? fun d => startsWith d.toList rest
  let body ← after? delimiter.toList rest
  return openConstruct .string true delimiter.toList delimiter.toList rest body
    (.blockString delimiter)

/-- The kind of token that a quote opens. -/
def quoteKind? (p : Profile) (quote : Char) : Option Kind :=
  if p.stringQuotes.contains quote then some .string
  else if p.charQuotes.contains quote then some .literal
  else none

/-- A string or character literal within one line. Unless it is closed there it takes the rest of
the line without the terminator. -/
def quotedClaim? (p : Profile) (rest : List Char) : Option Claim := do
  let quote ← rest.head?
  let kind ← quoteKind? p quote
  let line := content rest
  match closeEnd? true [quote] line.tail with
  | some n => return { kind, length := n + 1 }
  | none => return { kind, length := line.length }

/-! ### Numbers and words -/

/-- How many characters of class `p` the text starts with. -/
def runLength (p : Char → Bool) (cs : List Char) : Nat := (cs.takeWhile p).length

theorem take_runLength (p : Char → Bool) (cs : List Char) :
    cs.take (runLength p cs) = cs.takeWhile p :=
  (List.prefix_iff_eq_take.mp (List.takeWhile_prefix p)).symm

theorem drop_runLength (p : Char → Bool) (cs : List Char) :
    cs.drop (runLength p cs) = cs.dropWhile p := by
  have h := List.take_append_drop (runLength p cs) cs
  rw [take_runLength] at h
  exact List.append_cancel_left (h.trans List.takeWhile_append_dropWhile.symm)

/-- How many characters a fraction takes: a point and at least one digit, or nothing. -/
def fractionLength : List Char → Nat
  | '.' :: rest => let n := runLength isDigit rest; if n = 0 then 0 else n + 1
  | _ => 0

/-- How many characters a hexadecimal number takes: `0x` or `0X` and at least one digit, or
nothing. -/
def hexLength : List Char → Nat
  | '0' :: x :: rest =>
    let n := if x = 'x' ∨ x = 'X' then runLength isHexDigit rest else 0
    if n = 0 then 0 else n + 2
  | _ => 0

/-- How many characters of the text are a number. -/
def numberLength (rest : List Char) : Nat :=
  let hex := hexLength rest
  if hex = 0 then
    let whole := runLength isDigit rest
    whole + fractionLength (rest.drop whole)
  else hex

/-- A number: hexadecimal, or decimal with or without a fraction, or a fraction alone. -/
def numberClaim? (rest : List Char) : Option Claim :=
  let n := numberLength rest
  if n = 0 then none else some { kind := .number, length := n }

/-- A word is a keyword if it is reserved and an identifier otherwise. -/
def wordKind (p : Profile) (word : List Char) : Kind :=
  if p.isKeyword (String.ofList word) then .keyword else .identifier

def wordClaim? (p : Profile) : List Char → Option Claim
  | [] => none
  | c :: cs =>
    if p.isWordStart c then
      let word := c :: cs.takeWhile p.isWordPart
      some { kind := wordKind p word, length := word.length }
    else none

/-! ### Operators and single characters -/

def operatorClaim? (p : Profile) (rest : List Char) : Option Claim := do
  let op ← p.operators.find? fun op => startsWith op.toList rest
  return { kind := .operator, length := op.length }

def singleClaim? (kind : Kind) (table : List Char) (rest : List Char) : Option Claim := do
  let c ← rest.head?
  if table.contains c then return { kind, length := 1 } else none

/-- A run of white space, line terminators included. -/
def whitespaceClaim? (rest : List Char) : Option Claim :=
  some { kind := .whitespace, length := runLength isBlank rest }

/-- What a category claims at the start of a text. -/
def claim? (p : Profile) (rest : List Char) : Category → Option Claim
  | blockComment => blockCommentClaim? p rest
  | lineComment => lineCommentClaim? p rest
  | blockString => blockStringClaim? p rest
  | quoted => quotedClaim? p rest
  | number => numberClaim? rest
  | word => wordClaim? p rest
  | operator => operatorClaim? p rest
  | punctuation => singleClaim? .punctuation p.punctuation rest
  | delimiter => singleClaim? .delimiter p.delimiters rest
  | whitespace => whitespaceClaim? rest

end Category

/-! ### The longest claim -/

/-- Of two claims the longer one; the earlier one if the later is not longer. Empty claims do not
count. -/
def Claim.longer (best : Option Claim) (claim : Option Claim) : Option Claim :=
  match claim with
  | none => best
  | some c => if (best.map Claim.length).getD 0 < c.length then some c else best

/-- The first of the longest claims of some categories at the start of a text. -/
def longestClaim? (categories : List Category) (p : Profile) (rest : List Char) : Option Claim :=
  categories.foldl (fun best category => Claim.longer best (category.claim? p rest)) none

/-- A claim that wins takes at least one character. -/
theorem length_pos_of_longestClaim? {categories : List Category} {p : Profile}
    {rest : List Char} {c : Claim} (h : longestClaim? categories p rest = some c) :
    0 < c.length := by
  -- A claim gives way to a longer one only, so no claim is left with nothing.
  suffices ∀ (l : List Category) (best : Option Claim),
      (∀ b ∈ best, 0 < b.length) → ∀ b ∈ l.foldl
        (fun best category => Claim.longer best (category.claim? p rest)) best, 0 < b.length from
    this categories none (by simp) c h
  intro l
  induction l with
  | nil => exact fun _ hb => hb
  | cons category l ih =>
    refine fun best hb => ih _ fun b hmem => ?_
    simp only [Claim.longer] at hmem
    split at hmem
    · exact hb b hmem
    · split at hmem
      · next hlt =>
        rw [Option.mem_some_iff] at hmem
        subst hmem
        exact Nat.lt_of_le_of_lt (Nat.zero_le _) hlt
      · exact hb b hmem

end PolyLex.Scan
