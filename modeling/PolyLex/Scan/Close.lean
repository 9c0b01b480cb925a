import PolyLex.Text.Trim

/-!
# Where an open construct ends

A comment or string that has been opened runs up to its close marker. `closeEnd?` looks for the
marker in a text; in strings a backslash takes the character after it out of the search, whatever
that character is. `content` is a physical line without its terminator, which is as far as a
string of one line may run.
-/

namespace PolyLex.Scan

open Text

/-- How many characters of the text the construct still takes, its close marker included; `none`
if it stays open. With `escapes`, a backslash and the character after it are passed over. -/
def closeEnd? (escapes : Bool) (close : List Char) : List Char → Option Nat
  | [] => none
  | c :: cs =>
    if escapes && c == '\\' then
      match cs with
      | [] => none
      | _ :: rest => (closeEnd? escapes close rest).map (· + 2)
    else if startsWith close (c :: cs) then some close.length
    else (closeEnd? escapes close cs).map (· + 1)

/-- A physical line without its terminator, which is a line feed or the pair of carriage return
and line feed; a carriage return at the end of an unterminated line counts as one too. -/
def content : List Char → List Char
  | [] => []
  | ['\n'] => []
  | ['\r'] => []
  | ['\r', '\n'] => []
  | c :: cs => c :: content cs

end PolyLex.Scan
