import PolyLex.Text.Trim

/-!
# Numeric addresses of four bytes

A host whose last label is a number is an address of four bytes. There may be fewer than four
numbers: the last then fills the bytes that are left. Numbers are decimal, octal behind a zero and
hexadecimal behind `0x`.
-/

namespace PolyLex.Url.Ipv4

/-- The number that some digits make up. -/
def ofDigits (base : Nat) (digits : List Char) : Option Nat :=
  digits.foldlM (fun n c => do
    let d ← Text.hexValue? c
    if d < base then some (n * base + d) else none) 0

/-- A number of an address. No digits behind a sign of the base make zero. -/
def number? : List Char → Option Nat
  | [] => none
  | '0' :: 'x' :: digits => ofDigits 16 digits
  | '0' :: 'X' :: digits => ofDigits 16 digits
  | ['0'] => some 0
  | '0' :: digits => ofDigits 8 digits
  | digits => ofDigits 10 digits

/-- The labels of a name, without an empty one at the end. -/
def labels (name : List Char) : List (List Char) :=
  match (Text.splitBy (· == '.') name).reverse with
  | [] :: last :: before => (last :: before).reverse
  | back => back.reverse

def endsInNumber (name : List Char) : Bool :=
  (labels name).getLast?.any fun label =>
    (!label.isEmpty && label.all Text.isDigit) || (number? label).isSome

/-- Fill the bytes from the left: all numbers but the last fill one, the last those that are
left. -/
def fill (left : Nat) : List Nat → Option Nat
  | [] => none
  | [n] => if 0 < left ∧ n < Nat.pow 256 left then some n else none
  | n :: rest => do
    let low ← fill (left - 1) rest
    if 0 < left ∧ n < 256 then some (n * Nat.pow 256 (left - 1) + low) else none

/-- The address that a name stands for. -/
def ofName? (name : List Char) : Option Nat := do
  fill 4 (← (labels name).mapM number?)

/-- The four bytes of an address with dots between them. -/
def text (n : Nat) : String :=
  ".".intercalate ([3, 2, 1, 0].map fun i => toString (n / Nat.pow 256 i % 256))

end PolyLex.Url.Ipv4
