import PolyLex.Language.Basic
import PolyLex.Proofs.Text.Classes
import PolyLex.Proofs.Text.Lines

/-!
# Profiles that cut lines well

What the laws of the scanner ask of a profile. Each is a property of its tables alone, and all five
languages have it.

* `Profile.QuotesInLine`: no quote is a line terminator, so a literal has a first character on its
  line.
* `Profile.ClosersNonempty`: no construct that spans lines closes on an empty marker.
* `Profile.WellMarked`: no marker is empty, and nothing that an escape is looked up for starts with
  a backslash.
* `Profile.WithinLines`: no spelling and no table holds a line terminator, and no operator is empty.
-/

namespace PolyLex

namespace Profile

/-- The quotes of strings and of character literals. -/
def quotes (p : Profile) : List Char := p.stringQuotes ++ p.charQuotes

/-- No quote of the profile is a line terminator. -/
def QuotesInLine (p : Profile) : Prop := ∀ q ∈ p.quotes, q ≠ '\n' ∧ q ≠ '\r'

/-- No construct of the profile closes on an empty marker. -/
def ClosersNonempty (p : Profile) : Prop :=
  (∀ marks ∈ p.blockComment, marks.2 ≠ "") ∧ ∀ delimiter ∈ p.blockStrings, delimiter ≠ ""

/-- The markers of the profile are not empty, and what may be escaped starts with no backslash. -/
structure WellMarked (p : Profile) : Prop where
  lineComments : ∀ marker ∈ p.lineComments, marker ≠ ""
  blockComment : ∀ marks ∈ p.blockComment, marks.1 ≠ "" ∧ marks.2 ≠ ""
  blockStrings : ∀ delimiter ∈ p.blockStrings, delimiter ≠ "" ∧ delimiter.toList.head? ≠ some '\\'
  quotesInLine : p.QuotesInLine
  quotesUnescaped : ∀ q ∈ p.quotes, q ≠ '\\'

/-- No mark that closes a construct is empty. -/
theorem WellMarked.closersNonempty {p : Profile} (h : p.WellMarked) : p.ClosersNonempty :=
  ⟨fun marks hm => (h.blockComment marks hm).2, fun d hd => (h.blockStrings d hd).1⟩

end Profile

/-- Nothing that the profile looks for reaches over the end of a line. -/
structure Profile.WithinLines (p : Profile) : Prop where
  lineComments : ∀ marker ∈ p.lineComments, Text.NoTerminator marker.toList
  blockComment : ∀ marks ∈ p.blockComment,
    Text.NoTerminator marks.1.toList ∧ Text.NoTerminator marks.2.toList
  blockStrings : ∀ delimiter ∈ p.blockStrings, Text.NoTerminator delimiter.toList
  operators : ∀ op ∈ p.operators, op ≠ "" ∧ Text.NoTerminator op.toList
  punctuation : Text.NoTerminator p.punctuation
  delimiters : Text.NoTerminator p.delimiters
  identifierExtras : Text.NoTerminator p.identifierExtras

/-- The registered profiles are well marked. -/
theorem Language.wellMarked_profile (l : Language) : l.profile.WellMarked := by
  cases l <;>
    exact ⟨by decide, by decide, by decide, Text.forall_mem_of_all (by decide),
      Text.forall_mem_of_all (by decide)⟩

/-- The registered profiles have no mark with a line feed in it. -/
theorem Language.withinLines_profile (l : Language) : l.profile.WithinLines := by
  cases l <;>
    exact ⟨by decide, by decide, by decide, by decide +kernel, by decide, by decide, by decide⟩

end PolyLex
