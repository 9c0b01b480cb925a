import PolyLex.Text.Trim

/-!
# Language profiles

A profile holds the spellings that tell one language from another: its reserved words, comment
markers, quotes and operators. It is plain data; how text is cut by it is the business of the
scanner.

Operators are kept longest first (by bytes, equals in the order of their characters) and without
repetitions, so the first operator that starts a text is the longest that does. A profile carries
the proof of that order (`Profile.Arranged`), and `Profile.ofRules` brings any list of operators
into it.
-/

namespace PolyLex

/-- The rules of a language as they are written down. -/
structure Rules where
  /-- Reserved words. -/
  keywords : List String := []
  /-- Markers that open a comment to the end of the line. -/
  lineComments : List String := []
  /-- The markers around a comment that may span lines. -/
  blockComment : Option (String × String) := none
  blockStrings : List String := []
  stringQuotes : List Char := []
  charQuotes : List Char := []
  operators : List String := []
  punctuation : List Char := []
  /-- Characters besides the underscore that identifiers may hold. -/
  identifierExtras : List Char := []

namespace Profile

/-! ### The order of operators -/

/-- Does one operator stand before the other? The longer one does; of two of one length, the one
whose characters come first. -/
def standsBefore (a b : String) : Bool :=
  b.utf8ByteSize < a.utf8ByteSize || (a.utf8ByteSize == b.utf8ByteSize && a < b)

/-- Put an operator into its place, unless it is there already. -/
def insertOperator (op : String) : List String → List String
  | [] => [op]
  | o :: rest =>
    if op = o then o :: rest
    else if standsBefore op o then op :: o :: rest
    else o :: insertOperator op rest

/-- The operators of a list, longest first, each once. -/
def arrange (operators : List String) : List String := operators.foldr insertOperator []

/-- Each operator stands before all that follow it. -/
def Arranged (operators : List String) : Prop :=
  operators.Pairwise fun a b => standsBefore a b = true

/-- Longer operators come first, and those of one length in the order of their texts. -/
theorem standsBefore_iff {a b : String} : standsBefore a b = true ↔
    b.utf8ByteSize < a.utf8ByteSize ∨ a.utf8ByteSize = b.utf8ByteSize ∧ a < b := by
  simp [standsBefore]

/-- The order of operators is transitive, as an arranged list has to be. -/
theorem standsBefore_trans {a b c : String} (hab : standsBefore a b = true)
    (hbc : standsBefore b c = true) : standsBefore a c = true := by
  rw [standsBefore_iff] at *
  rcases hab with hab | ⟨eab, hab⟩ <;> rcases hbc with hbc | ⟨ebc, hbc⟩
  · exact .inl (Nat.lt_trans hbc hab)
  · exact .inl (ebc ▸ hab)
  · exact .inl (eab ▸ hbc)
  · exact .inr ⟨eab.trans ebc, String.lt_trans hab hbc⟩

/-- Of two different operators one stands before the other. -/
theorem standsBefore_of_not {a b : String} (hne : a ≠ b) (h : ¬ standsBefore a b = true) :
    standsBefore b a = true := by
  rw [standsBefore_iff] at *
  rcases Nat.lt_trichotomy a.utf8ByteSize b.utf8ByteSize with hlt | heq | hlt
  · exact .inl hlt
  · refine .inr ⟨heq.symm, Decidable.byContradiction fun hba => ?_⟩
    have hab : ¬ a < b := fun hab => h (.inr ⟨heq, hab⟩)
    exact hne (String.le_antisymm (String.not_lt.mp hba) (String.not_lt.mp hab))
  · exact absurd (.inl hlt) h

/-- Insertion adds one operator and loses none. -/
theorem mem_insertOperator {op x : String} : ∀ {ops : List String},
    x ∈ insertOperator op ops ↔ x = op ∨ x ∈ ops
  | [] => by simp [insertOperator]
  | o :: rest => by
    unfold insertOperator
    split
    · next h => subst h; simp
    · split
      · simp
      · simp [mem_insertOperator, or_left_comm]

theorem arranged_insertOperator (op : String) : ∀ {ops : List String},
    Arranged ops → Arranged (insertOperator op ops)
  | [], _ => by simp [insertOperator, Arranged]
  | o :: rest, h => by
    have hhead : ∀ x ∈ rest, standsBefore o x = true := (List.pairwise_cons.mp h).1
    unfold insertOperator
    split
    · exact h
    · next hne =>
      split
      · next hlt =>
        refine List.pairwise_cons.mpr ⟨fun x hx => ?_, h⟩
        rcases List.mem_cons.mp hx with rfl | hx
        · exact hlt
        · exact standsBefore_trans hlt (hhead x hx)
      · next hlt =>
        refine List.pairwise_cons.mpr
          ⟨fun x hx => ?_, arranged_insertOperator op (List.pairwise_cons.mp h).2⟩
        rcases mem_insertOperator.mp hx with rfl | hx
        · exact standsBefore_of_not hne hlt
        · exact hhead x hx

theorem arranged_arrange : ∀ ops : List String, Arranged (arrange ops)
  | [] => List.Pairwise.nil
  | op :: ops => arranged_insertOperator op (arranged_arrange ops)

end Profile

/-- The rules of a language, ready for the scanner: the operators stand longest first. -/
structure Profile extends Rules where
  delimiters : List Char
  arranged : Profile.Arranged operators

namespace Profile

/-- Brackets, which delimit in every language. -/
def brackets : List Char := ['(', ')', '[', ']', '\x7b', '\x7d']

def ofRules (rules : Rules) : Profile :=
  { rules with
    operators := arrange rules.operators
    delimiters := brackets
    arranged := arranged_arrange rules.operators }

/-- Is the word reserved? Case matters. -/
def isKeyword (p : Profile) (word : String) : Bool := p.keywords.contains word

/-- How many different words are reserved. -/
def keywordCount (p : Profile) : Nat := p.keywords.eraseDups.length

/-- Has the language strings that may span lines? -/
def hasBlockStrings (p : Profile) : Bool := !p.blockStrings.isEmpty

/-- May an identifier start with this character? -/
def isWordStart (p : Profile) (c : Char) : Bool :=
  Text.isAlphabetic c || c == '_' || p.identifierExtras.contains c

/-- May an identifier go on with this character? -/
def isWordPart (p : Profile) (c : Char) : Bool :=
  Text.isAlphanumeric c || c == '_' || p.identifierExtras.contains c

end Profile

end PolyLex
