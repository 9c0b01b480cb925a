import PolyLex.Text.CharClass

/-!
# Trimming and cutting text

Texts are cut at their ends by a class of characters, at a literal opening, and into physical
lines. All of it works on lists of characters; the versions on `String` convert at the border.
-/

namespace PolyLex.Text

/-! ### Ends of a text -/

/-- Drop the characters of class `p` from the end. -/
def dropEndWhile (p : Char → Bool) (cs : List Char) : List Char :=
  (cs.reverse.dropWhile p).reverse

/-- Drop the characters of class `p` from both ends. -/
def trimBy (p : Char → Bool) (cs : List Char) : List Char :=
  dropEndWhile p (cs.dropWhile p)

/-- The text without white space at its ends. -/
def trim (s : String) : String := String.ofList (trimBy isBlank s.toList)

/-- The text without white space at its end. -/
def trimEnd (s : String) : String := String.ofList (dropEndWhile isBlank s.toList)

def isBlankText (s : String) : Bool := s.toList.all isBlank

/-- The text with the twenty-six capitals made small. -/
def lowerAsciiText (s : String) : String := String.ofList (s.toList.map lowerAscii)

/-! ### Literal openings -/

/-- What follows `lead`, if the text starts with it. -/
def after? : (lead cs : List Char) → Option (List Char)
  | [], cs => some cs
  | _ :: _, [] => none
  | a :: lead, c :: cs => if a = c then after? lead cs else none

/-- A text that starts with `lead` is `lead` followed by what `after?` returns. -/
theorem after?_eq_some_iff : ∀ {lead cs rest : List Char},
    after? lead cs = some rest ↔ cs = lead ++ rest
  | [], cs, rest => by simp [after?]
  | a :: lead, [], rest => by simp [after?]
  | a :: lead, c :: cs, rest => by
    unfold after?
    split
    · next h => subst h; simp [after?_eq_some_iff]
    · next h => simp [Ne.symm h]

/-- Does the text start with `lead`? -/
def startsWith (lead cs : List Char) : Bool := (after? lead cs).isSome

/-! ### Parts between marks -/

/-- The parts of a text between the characters of class `p`, one more than there are such
characters. -/
def splitBy (p : Char → Bool) : List Char → List (List Char)
  | [] => [[]]
  | c :: cs =>
    if p c then [] :: splitBy p cs
    else match splitBy p cs with
      | [] => [[c]]
      | part :: rest => (c :: part) :: rest

/-! ### Physical lines -/

/-- The text up to and including its first line feed, and what follows. -/
def firstLine : List Char → List Char × List Char
  | [] => ([], [])
  | c :: cs =>
    if c = '\n' then (['\n'], cs)
    else let (line, rest) := firstLine cs; (c :: line, rest)

/-- The two parts of `firstLine` make up the text. -/
theorem firstLine_append : ∀ cs : List Char, (firstLine cs).1 ++ (firstLine cs).2 = cs
  | [] => rfl
  | c :: cs => by
    unfold firstLine
    split
    · next h => simp [h]
    · simp [firstLine_append cs]

/-- Behind the first line the text is shorter. -/
theorem length_firstLine_snd_lt (c : Char) (cs : List Char) :
    (firstLine (c :: cs)).2.length < (c :: cs).length := by
  have h := congrArg List.length (firstLine_append (c :: cs))
  have hpos : 0 < (firstLine (c :: cs)).1.length := by
    unfold firstLine; split <;> simp
  rw [List.length_append] at h
  omega

/-- The physical lines of a text, each with its line feed; the last may lack one. The empty text
has no line. -/
def lines : List Char → List (List Char)
  | [] => []
  | c :: cs => (firstLine (c :: cs)).1 :: lines (firstLine (c :: cs)).2
termination_by cs => cs.length
decreasing_by exact length_firstLine_snd_lt c cs

/-- Lines lose nothing: joined, they are the text. -/
theorem flatten_lines (cs : List Char) : (lines cs).flatten = cs := by
  fun_induction lines cs with
  | case1 => rfl
  | case2 c cs ih => rw [List.flatten_cons, ih, firstLine_append]

end PolyLex.Text
