import PolyLex.Error
import PolyLex.Json.Reader
import PolyLex.Text.Trim

/-!
# The payload of a reply

The remote service is asked for bare JSON and often wraps it all the same. `payload` takes the
wrapping off: marks of byte order at the start, then the first block between fences, with or
without the tag `json`; a reply without such a block, or with a blank one, is its own payload.
Nothing is mended: a payload that is no JSON document is refused.
-/

namespace PolyLex.Remote

open Text

/-- Three backticks. -/
def fence : List Char := ['\x60', '\x60', '\x60']

/-- The text before the first occurrence of a mark and the text behind it. -/
def splitAt? (mark : List Char) : List Char → Option (List Char × List Char)
  | [] => if mark.isEmpty then some ([], []) else none
  | c :: cs =>
    match after? mark (c :: cs) with
    | some rest => some ([], rest)
    | none => (splitAt? mark cs).map fun (before, rest) => (c :: before, rest)

/-- What stands in the first block between fences, without its tag. -/
def firstBlock? (content : List Char) : Option (List Char) := do
  let (_, inside) ← splitAt? fence content
  let (block, _) ← splitAt? fence inside
  return (after? ['j', 's', 'o', 'n'] block).getD block

/-- The part of a reply that is to be read. -/
def payload (content : String) : String :=
  let cs := content.toList.dropWhile (· == '\uFEFF')
  let whole := trimBy isBlank cs
  String.ofList <| match firstBlock? cs with
    | some block =>
      let inner := trimBy isBlank block
      -- Where the block is blank, the whole text is read in its place.
      if inner.isEmpty then whole else inner
    | none => whole

/-- How much of a refused text is shown. -/
def previewLength : Nat := 200

/-- The beginning of a text. -/
def preview (text : String) : String := String.ofList (text.toList.take previewLength)

/-- The value that a reply holds. -/
def extract (content : String) : Except Error Json.Value :=
  let text := payload content
  match Json.parse text with
  | .ok v => .ok v
  | .error fault => .error (.malformedReply (.notJson fault (preview text)))

end PolyLex.Remote
