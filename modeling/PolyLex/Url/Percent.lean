import PolyLex.Text.CharClass

/-!
# Percent encoding

A character that may not stand in some part of a URL is written as its encoded bytes, each a percent
sign and two hexadecimal digits. Which characters may stand is decided by the part.
-/

namespace PolyLex.Url.Percent

def ofByte (b : UInt8) : List Char :=
  ['%', Text.capitalHexDigit (b.toNat / 16), Text.capitalHexDigit (b.toNat % 16)]

/-- Is it printable and among the first 128 characters? -/
def isPlain (c : Char) : Bool := ' ' ≤ c && c ≤ '~'

/-- The text with percent signs for everything that is not plain or is in a list. -/
def encode (reserved : List Char) (cs : List Char) : List Char :=
  cs.flatMap fun c =>
    if isPlain c && !reserved.contains c then [c]
    else (String.utf8EncodeChar c).flatMap ofByte

/-- The bytes of a text; a percent sign with two hexadecimal digits is one byte. -/
def bytes : List Char → List UInt8
  | '%' :: a :: b :: rest =>
    match Text.hexValue? a, Text.hexValue? b with
    | some m, some n => (16 * m + n).toUInt8 :: bytes rest
    | _, _ => '%'.toNat.toUInt8 :: bytes (a :: b :: rest)
  | c :: rest => String.utf8EncodeChar c ++ bytes rest
  | [] => []
termination_by cs => cs.length

/-- The text whose encoded bytes are written, if they are the bytes of a text. -/
def decode? (cs : List Char) : Option (List Char) :=
  if cs.contains '%' then (String.fromUTF8? ⟨(bytes cs).toArray⟩).map String.toList else some cs

end PolyLex.Url.Percent
