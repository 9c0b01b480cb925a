import PolyLex.Text.Trim

/-!
# Kinds of tokens

Eleven kinds are known by name. A remote listing may report further kinds; they are kept under the
name they came with. `Kind.ofName` reads a name: known names match without regard to case or to
white space around them, and every other name is kept as it stands, so reading a name and writing
it again changes only the spelling of known kinds (`Kind.ofName_name_ofName`).
-/

namespace PolyLex

open Text

inductive Kind where
  | keyword
  | identifier
  | operator
  | literal
  | number
  | string
  | comment
  | punctuation
  | delimiter
  | whitespace
  | error
  /-- A kind outside the known eleven, under the name it was reported with. -/
  | other (name : String)
  deriving Repr, DecidableEq, Inhabited

namespace Kind

/-- The eleven kinds known by name. -/
def known : List Kind :=
  [keyword, identifier, operator, literal, number, string, comment, punctuation, delimiter,
   whitespace, error]

/-- The name under which a kind is counted and written. -/
def name : Kind → String
  | keyword => "keyword"
  | identifier => "identifier"
  | operator => "operator"
  | literal => "literal"
  | number => "number"
  | string => "string"
  | comment => "comment"
  | punctuation => "punctuation"
  | delimiter => "delimiter"
  | whitespace => "whitespace"
  | error => "error"
  | other name => name

def isKnown : Kind → Bool
  | other _ => false
  | _ => true

/-- The spelling that decides which kind a name stands for. -/
def fold (name : String) : String := lowerAsciiText (trim name)

/-- The kind that a name stands for. -/
def ofName (name : String) : Kind :=
  (known.find? fun kind => kind.name == fold name).getD (other name)

theorem isKnown_of_mem {kind : Kind} (h : kind ∈ known) : kind.isKnown = true := by
  revert kind
  decide

/-- A known kind is read from its name. -/
theorem ofName_name_of_isKnown {kind : Kind} (h : kind.isKnown = true) :
    ofName kind.name = kind := by
  cases kind with
  | other name => cases h
  | _ => decide +kernel

/-- A name stands for a known kind or for itself. -/
theorem ofName_cases (name : String) :
    (ofName name).isKnown = true ∨ ofName name = other name := by
  unfold ofName
  cases h : known.find? fun kind => kind.name == fold name with
  | none => exact .inr rfl
  | some kind => exact .inl (isKnown_of_mem (List.mem_of_find?_eq_some h))

/-- Reading a name and writing it again settles its spelling. -/
theorem ofName_name_ofName (name : String) : ofName (ofName name).name = ofName name := by
  rcases ofName_cases name with h | h
  · exact ofName_name_of_isKnown h
  · rw [h]
    exact h

end Kind

end PolyLex
