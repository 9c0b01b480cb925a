import PolyLex.Text.CharClass

/-!
# Names in basic letters

A name in any script is written with the twenty-six letters, ten digits and a hyphen: the basic
characters come first, then, behind a hyphen, where to put the others. The others are placed in
ascending order, and what is written is how far the place of insertion moves on from one to the
next: a number to base thirty-six whose digits have thresholds, the digit below its threshold being
the last. The thresholds follow a bias that adapts to the size of the numbers.

Loops end because a number falls (`adaptTo`, `writeNumber`) or the rest of the text gets shorter
(`readNumber`, `decodeFrom`).
-/

namespace PolyLex.Url.Punycode

/-! ### Digits and thresholds -/

/-- The digit of a value below thirty-six: letters, then digits. -/
def digit (value : Nat) : Char :=
  if value < 26 then Char.ofNat ('a'.toNat + value) else Char.ofNat ('0'.toNat + (value - 26))

/-- The value of a digit. -/
def value? (c : Char) : Option Nat :=
  if 'a' ≤ c && c ≤ 'z' then some (c.toNat - 'a'.toNat)
  else if 'A' ≤ c && c ≤ 'Z' then some (c.toNat - 'A'.toNat)
  else if Text.isDigit c then some (c.toNat - '0'.toNat + 26)
  else none

/-- The threshold of a digit whose place is counted in steps of thirty-six. -/
def threshold (place bias : Nat) : Nat := max 1 (min 26 (place - bias))

/-- The largest number that leaves the bias where it falls. -/
def steady : Nat := 455

/-- Bring a number down by the factor thirty-five, and count in steps of thirty-six. -/
def adaptTo (n steps : Nat) : Nat × Nat :=
  if steady < n then adaptTo (n / 35) (steps + 36) else (n, steps)
termination_by n
decreasing_by exact Nat.div_lt_self (by unfold steady at *; omega) (by omega)

/-- The bias after a number, when so many characters are placed. -/
def adapt (n placed : Nat) (first : Bool) : Nat :=
  let damped := if first then n / 700 else n / 2
  let (rest, steps) := adaptTo (damped + damped / placed) 0
  steps + 36 * rest / (rest + 38)

/-! ### Writing -/

def writeNumber (bias place n : Nat) : List Char :=
  let t := threshold place bias
  if n < t then [digit n]
  else digit (t + (n - t) % (36 - t)) :: writeNumber bias (place + 36) ((n - t) / (36 - t))
termination_by n
decreasing_by
  have h : 1 ≤ threshold place bias := Nat.le_max_left _ _
  exact Nat.lt_of_le_of_lt (Nat.div_le_self _ _) (by omega)

/-- How far the writing has come. -/
structure Progress where
  /-- How far the place of insertion has moved since the last number. -/
  moved : Nat := 0
  bias : Nat := 72
  /-- How many characters are placed. -/
  placed : Nat

/-- Go through the text once and place one code point wherever it stands. -/
def place (m : Nat) (basic : Nat) (p : Progress) : List Char → List Char × Progress
  | [] => ([], p)
  | c :: cs =>
    if c.toNat = m then
      let bias := adapt p.moved (p.placed + 1) (p.placed == basic)
      let (rest, q) := place m basic ⟨0, bias, p.placed + 1⟩ cs
      (writeNumber p.bias 36 p.moved ++ rest, q)
    else place m basic (if c.toNat < m then { p with moved := p.moved + 1 } else p) cs

/-- Place the code points of an ascending list; all below `low` are placed. -/
def placeAll (text : List Char) (basic low : Nat) (p : Progress) : List Nat → List Char
  | [] => []
  | m :: ms =>
    let here := { p with moved := p.moved + (m - low) * (p.placed + 1) }
    let (written, q) := place m basic here text
    written ++ placeAll text basic (m + 1) { q with moved := q.moved + 1 } ms

/-- Is it one of the basic characters, which are written as they stand? -/
def isBasic (c : Char) : Bool := c.toNat < 0x80

def encode (name : List Char) : List Char :=
  let basic := name.filter isBasic
  let others := ((name.filter (!isBasic ·)).map Char.toNat).eraseDups.mergeSort
  basic ++ (if basic.isEmpty then [] else ['-']) ++
    placeAll name basic.length 0x80 { placed := basic.length } others

/-! ### Reading -/

/-- A number and what follows it. -/
def readNumber (bias place weight n : Nat) :
    (cs : List Char) → Option (Nat × { rest : List Char // rest.length < cs.length })
  | [] => none
  | c :: cs => do
    let d ← value? c
    let t := threshold place bias
    if d < t then return (n + d * weight, ⟨cs, by simp⟩)
    else
      let (m, rest) ← readNumber bias (place + 36) (weight * (36 - t)) (n + d * weight) cs
      return (m, ⟨rest.1, Nat.lt_trans rest.2 (by simp)⟩)

/-- Insert the characters that some numbers name, the first at or after a place. -/
def decodeFrom (basic position bias low : Nat) (name cs : List Char) : Option (List Char) :=
  match cs with
  | [] => some name
  | c :: rest => do
    let (n, ⟨rest, _⟩) ← readNumber bias 36 1 0 (c :: rest)
    let here := position + n
    let size := name.length + 1
    let code := low + here / size
    if code.isValidChar then
      let name := name.take (here % size) ++ Char.ofNat code :: name.drop (here % size)
      decodeFrom basic (here % size + 1) (adapt n size (name.length == basic + 1)) code name rest
    else none
termination_by cs.length
decreasing_by assumption

/-- The name of a written form, if it is one. -/
def decode? (written : List Char) : Option (List Char) :=
  let back := written.reverse
  let tail := (back.takeWhile (· ≠ '-')).reverse
  let basic := ((back.dropWhile (· ≠ '-')).drop 1).reverse
  if basic.all isBasic then decodeFrom basic.length 0 72 0x80 basic tail else none

end PolyLex.Url.Punycode
