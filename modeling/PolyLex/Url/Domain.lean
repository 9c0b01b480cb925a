import PolyLex.Text.GraphemeExtend
import PolyLex.Text.SmallLetter
import PolyLex.Text.Trim
import PolyLex.Text.Unprintable
import PolyLex.Url.Host
import PolyLex.Url.Punycode

/-!
# Domain names, letter by letter

Rules for domain names that look at one character at a time. A name is brought to small letters and
cut at its dots. A label beyond the basic letters is written in them, behind a tag; a label that
comes with the tag has to be such a writing. What is left may hold no character that has a meaning
in a URL.

For names in basic letters these are the rules of every edition. Beyond them, the full rules also
take signs apart that stand for several letters, compose letters with their marks and look at the
direction of a script; a program that needs this runs with an instance of `DomainNames` that has the
tables.
-/

namespace PolyLex.Url

/-- The tag of a label that is written in basic letters. -/
def labelTag : List Char := ['x', 'n', '-', '-']

/-- The characters that are left out of a name: marks of hyphenation, joining and variation that
have no width. -/
def isIgnored (c : Char) : Bool :=
  c == '\u00AD' || c == '\u034F' || c == '\u200B' || c == '\u2060' || c == '\u2064' ||
    c == '\uFEFF' || ('\u180B' ≤ c && c ≤ '\u180D') || ('\uFE00' ≤ c && c ≤ '\uFE0F')

/-- May the characters make up a label beyond the basic letters? -/
def isLabel (label : List Char) : Bool :=
  label.all Text.isPrintable && !(label.head?.any Text.isGraphemeExtend)

/-- A label in basic letters. -/
def labelToBasic? (label : List Char) : Option (List Char) :=
  match Text.after? labelTag label with
  | some written =>
    match Punycode.decode? written with
    | some name =>
      if label.all Punycode.isBasic && isLabel name && !name.all Punycode.isBasic then some label
      else none
    | none => none
  | none =>
    if label.all Punycode.isBasic then some label
    else if isLabel label then some (labelTag ++ Punycode.encode label)
    else none

/-- Has the character a meaning in a URL, so that no domain name may hold it? -/
def isForbiddenInDomain (c : Char) : Bool :=
  c ≤ ' ' || c == '\x7F' ||
    ['%', '#', '/', ':', '<', '>', '?', '@', '[', '\\', ']', '^', '|'].contains c

/-- A domain name in basic letters. -/
def domainToBasic? (name : List Char) : Option (List Char) := do
  let small := (name.filter (!isIgnored ·)).map Text.smallLetter
  let labels ← (Text.splitBy (· == '.') small).mapM labelToBasic?
  let basic := ['.'].intercalate labels
  if basic.any isForbiddenInDomain then none else some basic

/-- Plain names are not looked at any further. -/
instance : DomainNames where
  toBasic? name := if name.all isPlain then some name else domainToBasic? name
  toBasic?_plain _ h := if_pos (List.all_eq_true.mpr h)

end PolyLex.Url
