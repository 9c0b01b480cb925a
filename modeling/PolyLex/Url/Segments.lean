import PolyLex.Text.Trim
import PolyLex.Url.Percent

/-!
# Paths of URLs

A path is a list of segments. One dot stands for nothing and two dots take the segment before them
back; if either comes last, the path ends in an empty segment. The letter of a drive at the start of
a path of files stays.
-/

namespace PolyLex.Url

/-- What may not stand in a segment. -/
def reservedInPath : List Char := [' ', '"', '<', '>', '\x60', '#', '?', '\x7b', '\x7d']

/-- The two ways to write a dot. -/
def dots : List (List Char) := [['.'], ['%', '2', 'e']]

/-- Does the segment stand for nothing? -/
def isDot (segment : List Char) : Bool := dots.contains (segment.map Text.lowerAscii)

/-- Does the segment take one back? -/
def isTwoDots (segment : List Char) : Bool :=
  (dots.flatMap fun a => dots.map (a ++ ·)).contains (segment.map Text.lowerAscii)

/-- Does the segment name a drive: a letter and a colon or a bar? -/
def isDrive : List Char → Bool
  | [letter, mark] => Text.isBasicLetter letter && (mark == ':' || mark == '|')
  | _ => false

/-- Is it just the letter of a drive? -/
def isDrivePath : List String → Bool
  | [segment] => isDrive segment.toList
  | _ => false

/-- Take the last segment back. Segments are kept last first. -/
def takeBack (ofFiles : Bool) (back : List String) : List String :=
  if ofFiles && isDrivePath back then back else back.tail

def segment (ofFiles isFirst : Bool) (cs : List Char) : String :=
  if ofFiles && isFirst && isDrive cs then String.ofList (cs.take 1 ++ [':'])
  else String.ofList (Percent.encode reservedInPath cs)

/-- Go through segments behind those that are kept, last first. -/
def resolveSegments (ofFiles : Bool) (back : List String) : List (List Char) → List String
  | [] => back.reverse
  | cs :: rest =>
    let back :=
      if isTwoDots cs then
        let shorter := takeBack ofFiles back
        if rest.isEmpty then "" :: shorter else shorter
      else if isDot cs then if rest.isEmpty then "" :: back else back
      else segment ofFiles back.isEmpty cs :: back
    resolveSegments ofFiles back rest

/-- The segments of a path of files: none that is empty comes first, unless it is the only one. -/
def dropEmpty (segments : List String) : List String :=
  match segments.dropWhile String.isEmpty with
  | [] => [""]
  | rest => rest

end PolyLex.Url
