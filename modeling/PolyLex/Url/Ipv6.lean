import PolyLex.Text.Quoted
import PolyLex.Text.Trim

/-!
# Numeric addresses of eight pieces

Such an address is eight pieces of up to four hexadecimal digits with colons between them. Two
colons in a row stand, once, for one piece or more that are zero; the last two pieces may be four
decimal bytes with dots. Written out, the longest run of two zeros or more is left out, the first of
several.
-/

namespace PolyLex.Url.Ipv6

def piece? (digits : List Char) : Option Nat :=
  if digits.isEmpty || 4 < digits.length then none
  else digits.foldlM (fun n c => (Text.hexValue? c).map (16 * n + ·)) 0

/-- A decimal byte; it does not start with a zero unless it is one. -/
def byte? (digits : List Char) : Option Nat :=
  if digits.isEmpty || !digits.all Text.isDigit || 3 < digits.length ||
      (digits.head? == some '0' && digits.length != 1) then none
  else
    let n := digits.foldl (fun n c => 10 * n + (c.toNat - '0'.toNat)) 0
    if n < 256 then some n else none

/-- The last pieces: one, or two that are four bytes. -/
def lastPieces? (cs : List Char) : Option (List Nat) :=
  match (Text.splitBy (· == '.') cs).map byte? with
  | [some a, some b, some c, some d] => some [256 * a + b, 256 * c + d]
  | _ => (piece? cs).map fun n => [n]

/-- Some pieces; four bytes are understood at the end only. -/
def pieces? : List (List Char) → Option (List Nat)
  | [] => some []
  | [last] => lastPieces? last
  | first :: rest => do
    let n ← piece? first
    return n :: (← pieces? rest)

/-- The parts before and behind the first two colons in a row. -/
def splitGap : List Char → List Char × Option (List Char)
  | [] => ([], none)
  | ':' :: ':' :: rest => ([], some rest)
  | c :: cs => let (before, after) := splitGap cs; (c :: before, after)

/-- The parts of a text between colons; the empty text has none. -/
def parts (cs : List Char) : List (List Char) :=
  if cs.isEmpty then [] else Text.splitBy (· == ':') cs

/-- The eight pieces that a text stands for. -/
def ofText? (cs : List Char) : Option (List Nat) := do
  match splitGap cs with
  | (whole, none) =>
    let pieces ← pieces? (parts whole)
    if pieces.length = 8 then some pieces else none
  | (before, some after) =>
    let front ← (parts before).mapM piece?
    let back ← pieces? (parts after)
    let zeros := 8 - (front.length + back.length)
    if 0 < zeros then some (front ++ List.replicate zeros 0 ++ back) else none

/-- How many zeros a list starts with. -/
def zerosAhead (pieces : List Nat) : Nat := (pieces.takeWhile (· == 0)).length

/-- The length of the longest run of zeros, if it is longer than `best`. -/
def longestRun (best : Nat) : List Nat → Nat
  | [] => best
  | p :: rest => longestRun (max best (zerosAhead (p :: rest))) rest

/-- Pieces with colons between them. -/
def joined (pieces : List Nat) : String :=
  ":".intercalate (pieces.map fun n => String.ofList (Text.hexDigits n))

/-- The pieces before and behind the first run of so many zeros. -/
def cutRun (run : Nat) : List Nat → List Nat × List Nat
  | [] => ([], [])
  | p :: rest =>
    if zerosAhead (p :: rest) = run then ([], (p :: rest).drop run)
    else let (before, after) := cutRun run rest; (p :: before, after)

def text (pieces : List Nat) : String :=
  let run := longestRun 1 pieces
  if run ≤ 1 then joined pieces
  else let (before, after) := cutRun run pieces
    joined before ++ "::" ++ joined after

end PolyLex.Url.Ipv6
