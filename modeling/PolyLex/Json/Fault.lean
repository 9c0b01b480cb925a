/-!
# Why a text is no JSON document

A fault names what was wrong and where: the line, counted from one, and the number of bytes of
that line up to and including the offending one.
-/

namespace PolyLex.Json

inductive Problem where
  | eofValue
  | eofList
  | eofObject
  | eofString
  | expectedValue
  | expectedIdent
  | expectedColon
  | expectedListComma
  | expectedObjectComma
  | trailingComma
  | keyNotString
  | trailingCharacters
  | invalidNumber
  | numberOutOfRange
  | invalidEscape
  | controlCharacter
  | unpairedSurrogate
  | unexpectedEndOfHex
  | tooDeep
  deriving Repr, DecidableEq, Inhabited

def Problem.message : Problem → String
  | eofValue => "EOF while parsing a value"
  | eofList => "EOF while parsing a list"
  | eofObject => "EOF while parsing an object"
  | eofString => "EOF while parsing a string"
  | expectedValue => "expected value"
  | expectedIdent => "expected ident"
  | expectedColon => "expected `:`"
  | expectedListComma => "expected `,` or `]`"
  | expectedObjectComma => "expected `,` or `\x7d`"
  | trailingComma => "trailing comma"
  | keyNotString => "key must be a string"
  | trailingCharacters => "trailing characters"
  | invalidNumber => "invalid number"
  | numberOutOfRange => "number out of range"
  | invalidEscape => "invalid escape"
  | controlCharacter => "control character (\\u0000-\\u001F) found while parsing a string"
  | unpairedSurrogate => "lone leading surrogate in hex escape"
  | unexpectedEndOfHex => "unexpected end of hex escape"
  | tooDeep => "recursion limit exceeded"

/-- A problem and its place. -/
structure Fault where
  problem : Problem
  line : Nat
  /-- Bytes of the line up to and including the offending one. -/
  column : Nat
  deriving Repr, DecidableEq, Inhabited

def Fault.message (f : Fault) : String :=
  f.problem.message ++ " at line " ++ toString f.line ++ " column " ++ toString f.column

end PolyLex.Json
