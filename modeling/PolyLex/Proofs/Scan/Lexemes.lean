import PolyLex.Proofs.Scan.Munch
import PolyLex.Proofs.Scan.Openings

/-!
# The language of each kind

The kind of a token says what its lexeme looks like as a whole. `IsLexeme` is that language: words
and numbers have their grammar, operators and single characters their table, comments and literals
the marker that opens them. An error is a character that no rule of the profile knows
(`Profile.Foreign`).

* `isLexeme_of_takes`: what a category takes is a lexeme of the kind that it gives.
* `foreign_of_untaken`: where no category takes anything, the character is foreign.
* `Cursor.isKnown_feedLines`: no token has a kind without such a language, whatever is fed.
* `scan_lexemes`: each token of a source.
-/

namespace PolyLex

open Text

namespace Profile

/-- The markers that open comments, to the end of the line or over several lines. -/
def commentMarkers (p : Profile) : List String :=
  p.lineComments ++ p.blockComment.toList.map Prod.fst

/-- No lexeme but an error may start with the character, operators and markers apart. -/
structure Foreign (p : Profile) (c : Char) : Prop where
  blank : isBlank c = false
  alphabetic : isAlphabetic c = false
  underscore : c ≠ '_'
  digit : isDigit c = false
  extras : c ∉ p.identifierExtras
  quotes : c ∉ p.quotes
  punctuation : c ∉ p.punctuation
  delimiters : c ∉ p.delimiters

/-- No word starts with a character that is neither a letter nor one of the extras. -/
theorem not_isWordStart_iff {p : Profile} {c : Char} : p.isWordStart c = false ↔
    isAlphabetic c = false ∧ c ≠ '_' ∧ c ∉ p.identifierExtras := by
  simp [isWordStart, and_assoc]

end Profile

namespace Scan

/-- The text as a whole is a lexeme of the kind. Its token starts in the mode where `left` is what
is left of the source; a piece of a construct that was opened earlier has no opening marker. -/
def IsLexeme (p : Profile) (mode : Mode) (left w : List Char) : Kind → Prop
  | .keyword => p.IsWord w ∧ String.ofList w ∈ p.keywords
  | .identifier => p.IsWord w ∧ String.ofList w ∉ p.keywords
  | .number => IsNumber w
  | .operator => p.IsOperator w
  | .punctuation => IsOneOf p.punctuation w
  | .delimiter => IsOneOf p.delimiters w
  | .whitespace => IsBlankRun w
  | .error => ∃ c, w = [c] ∧ p.Foreign c ∧ ∀ op ∈ p.operators, ¬ op.toList <+: left
  | .comment => mode = .normal → ∃ marker ∈ p.commentMarkers, marker.toList <+: w
  | .string => mode = .normal →
      (∃ quote ∈ p.stringQuotes, [quote] <+: w) ∨ ∃ delimiter ∈ p.blockStrings, delimiter.toList <+: w
  | .literal => mode = .normal → ∃ quote ∈ p.charQuotes, [quote] <+: w
  | .other _ => False

variable {p : Profile} {mode : Mode} {left rest w : List Char}

/-! ### What the categories take -/

/-- A literal starts with a quote of the sort that gives it its kind. -/
theorem isLexeme_quoted {quote : Char} (hquote : quote ∈ p.quotes) (hw : [quote] <+: w) :
    IsLexeme p mode left w (Category.quoted.kindOf p w) := by
  obtain ⟨more, rfl⟩ := hw
  show IsLexeme p mode left _ (if p.stringQuotes.contains quote then .string else .literal)
  split
  · next hs =>
    intro _
    exact .inl ⟨quote, List.contains_iff_mem.mp hs, List.prefix_append _ _⟩
  · next hs =>
    intro _
    rcases List.mem_append.mp hquote with hmem | hmem
    · exact absurd (List.contains_iff_mem.mpr hmem) hs
    · exact ⟨quote, hmem, List.prefix_append _ _⟩

/-- A word is reserved or it is not. -/
theorem isLexeme_word (hw : p.IsWord w) :
    IsLexeme p mode left w (Category.word.kindOf p w) := by
  rw [Category.kindOf]
  split
  · next hkeyword => exact ⟨hw, hkeyword⟩
  · next hkeyword => exact ⟨hw, hkeyword⟩

/-- What a category takes is a lexeme of the kind that it gives. -/
theorem isLexeme_of_takes (hp : p.WithinLines) {category : Category}
    (h : category.Takes p rest w) : IsLexeme p mode left w (category.kindOf p w) := by
  -- What is taken starts with an opening of its category.
  obtain ⟨v, hv, hprefix, -⟩ := Category.exists_opens_of_takes hp h
  cases category with
  | blockComment =>
    obtain ⟨marks, hmarks, rfl⟩ := List.mem_map.mp hv
    intro _
    exact ⟨marks.1, List.mem_append_right _ (List.mem_map_of_mem hmarks), hprefix⟩
  | lineComment =>
    obtain ⟨marker, hmarker, rfl⟩ := List.mem_map.mp hv
    intro _
    exact ⟨marker, List.mem_append_left _ hmarker, hprefix⟩
  | blockString =>
    obtain ⟨delimiter, hdelimiter, rfl⟩ := List.mem_map.mp hv
    intro _
    exact .inr ⟨delimiter, hdelimiter, hprefix⟩
  | quoted =>
    obtain ⟨quote, hquote, rfl⟩ := List.mem_map.mp hv
    exact isLexeme_quoted hquote hprefix
  | number => exact h.2.1
  | word => exact isLexeme_word h.2.1
  | operator => exact h.2.1
  | punctuation => exact h.2.1
  | delimiter => exact h.2.1
  | whitespace => exact h.2.1

/-! ### Where nothing is taken -/

/-- A character that no category takes opens none, so no rule of the profile knows it. -/
theorem foreign_of_untaken (hp : p.WellMarked) (hin : p.WithinLines) {c : Char} {cs : List Char}
    (h : ∀ (category : Category) (v : List Char), category.Takes p (c :: cs) v → v = []) :
    p.Foreign c := by
  -- The character alone opens no category, or that category would take it.
  have hopens : ∀ category : Category, ¬ category.Opens p [c] := fun category =>
    Category.not_opens_of_untaken hp hin (h category) (List.prefix_append [c] cs)
  have hword : p.isWordStart c = false := by
    rw [Bool.eq_false_iff]
    exact fun hstart => hopens .word ⟨c, [], rfl, hstart, nofun⟩
  obtain ⟨halphabetic, hunderscore, hextras⟩ := Profile.not_isWordStart_iff.mp hword
  constructor
  · show isBlank c = false
    rw [Bool.eq_false_iff]
    exact fun hblank => hopens .whitespace ⟨List.cons_ne_nil c [], by simp [hblank]⟩
  · exact halphabetic
  · exact hunderscore
  · show isDigit c = false
    rw [Bool.eq_false_iff]
    exact fun hdigit => hopens .number (.whole (List.cons_ne_nil c []) (by simp [hdigit]))
  · exact hextras
  · show c ∉ p.quotes
    exact fun hmem => hopens .quoted (List.mem_map_of_mem hmem)
  · show c ∉ p.punctuation
    exact fun hmem => hopens .punctuation (List.mem_map_of_mem hmem)
  · show c ∉ p.delimiters
    exact fun hmem => hopens .delimiter (List.mem_map_of_mem hmem)

/-- Where no category takes anything, no operator starts. -/
theorem not_operator_of_untaken (hp : p.WellMarked) (hin : p.WithinLines)
    (h : ∀ (category : Category) (v : List Char), category.Takes p rest v → v = []) :
    ∀ op ∈ p.operators, ¬ op.toList <+: rest := by
  intro op hop hstarts
  exact Category.not_opens_of_untaken hp hin (h .operator) hstarts (List.mem_map_of_mem hop)

/-! ### The tokens of a source -/

/-- In the middle of a construct a token is a comment or a string. -/
theorem kind_claimOn_of_ne_normal {cur : Cursor} (hmode : cur.mode ≠ .normal) (line : List Char) :
    (cur.claimOn p line).kind = .comment ∨ (cur.claimOn p line).kind = .string := by
  unfold Cursor.claimOn
  cases h : cur.mode with
  | normal => exact absurd h hmode
  | blockComment => exact .inl (Category.kind_openConstruct ..)
  | blockString delimiter => exact .inr (Category.kind_openConstruct ..)

theorem Category.isKnown_kindOf (p : Profile) (w : List Char) (category : Category) :
    (category.kindOf p w).isKnown = true := by
  cases category with
  | quoted =>
    rw [kindOf]
    split <;> rfl
  | word =>
    rw [kindOf]
    split <;> rfl
  | _ => rfl

theorem isKnown_claimAt (p : Profile) (rest : List Char) :
    (claimAt p rest).kind.isKnown = true := by
  rw [claimAt]
  cases hwin : longestClaim? Category.all p rest with
  | none => rfl
  | some c =>
    obtain ⟨_, category, _, -, hc, -⟩ := exists_of_longestClaim? hwin
    have hkind := Category.kind_claim? hc (length_pos_of_longestClaim? hwin)
    rw [Option.getD_some, hkind]
    exact Category.isKnown_kindOf p _ category

namespace Cursor

/-- The pieces of the rest of a line are of known kinds. -/
theorem isKnown_cutRest (p : Profile) (cur : Cursor) (rest : List Char) :
    ∀ x ∈ (cutRest p cur rest).1, x.kind.isKnown = true := by
  fun_induction cutRest p cur rest with
  | case1 => exact fun x hx => absurd hx List.not_mem_nil
  | case2 cur c cs claim lexeme pieces last heq ih =>
    rw [heq] at ih
    exact List.forall_mem_cons.mpr ⟨isKnown_claimAt p (c :: cs), ih⟩

/-- A line owes no more than one piece, of a comment or a string. -/
theorem isKnown_resume (p : Profile) (cur : Cursor) (line : List Char) :
    ∀ x ∈ (resume p cur line).1, x.kind.isKnown = true := by
  have hconstruct : ∀ (kind : Kind) (escapes : Bool) (close : List Char), kind.isKnown = true →
      ∀ x ∈ (cur.continueConstruct kind escapes close line).1, x.kind.isKnown = true := by
    intro kind escapes close hkind
    rw [continueConstruct_eq_openConstruct, List.forall_mem_singleton, Category.kind_openConstruct]
    exact hkind
  unfold resume
  split
  · exact fun x hx => absurd hx List.not_mem_nil
  · split
    · exact hconstruct _ _ _ rfl
    · exact fun x hx => absurd hx List.not_mem_nil
  · exact hconstruct _ _ _ rfl

/-- The pieces of all lines are of known kinds. -/
theorem isKnown_cutLines (p : Profile) : ∀ (cur : Cursor) (fed : List (List Char)),
    ∀ x ∈ (cutLines p cur fed).1, x.kind.isKnown = true
  | _, [] => fun x hx => absurd hx List.not_mem_nil
  | cur, line :: fed => by
    rw [cutLines, List.forall_mem_append]
    refine ⟨?_, isKnown_cutLines p _ fed⟩
    rw [cutLine, List.forall_mem_append]
    exact ⟨isKnown_resume p cur line, isKnown_cutRest p _ _⟩

/-- Whatever the profile holds and whatever is fed, from wherever the scanner stands, the kinds of
the tokens are known. -/
theorem isKnown_feedLines (p : Profile) (cur : Cursor) (fed : List (List Char)) :
    ∀ t ∈ (feedLines p cur fed).1, t.kind.isKnown = true := by
  rw [feedLines_eq, List.forall_mem_map]
  exact isKnown_cutLines p cur fed

end Cursor

/-- The winning claim takes a lexeme of its kind; `left` is what is left of the source, of which the
claim sees the first line. -/
theorem isLexeme_claimAt (hp : p.WellMarked) (hin : p.WithinLines) (hleft : left ≠ []) :
    IsLexeme p mode left ((firstLine left).1.take (claimAt p (firstLine left).1).length)
      (claimAt p (firstLine left).1).kind := by
  have hmunch := munch_claimAt hp (firstLine_ne_nil hleft)
  generalize (claimAt p (firstLine left).1).kind = kind at hmunch ⊢
  generalize (firstLine left).1.take (claimAt p (firstLine left).1).length = w at hmunch ⊢
  cases hmunch with
  | lexeme _ _ htakes => exact isLexeme_of_takes hin htakes
  | @error c cs hline huntaken =>
    refine ⟨c, rfl, ?_, ?_⟩
    · rw [hline] at huntaken
      exact foreign_of_untaken hp hin huntaken
    · intro op hop hstarts
      -- No operator reaches over the end of the line.
      have hinLine := (hin.operators op hop).2.not_mem
      exact not_operator_of_untaken hp hin huntaken op hop (isPrefix_firstLine hinLine hstarts)

/-- Each piece is a lexeme of its kind where it stands. -/
theorem isLexeme_piece (hp : p.WellMarked) (hin : p.WithinLines) {source : String}
    {before after : List Piece} {x : Piece} (h : p.pieces source = before ++ x :: after) :
    IsLexeme p x.start.mode (source.toList.drop (Piece.joined before).length) x.lexeme x.kind := by
  obtain ⟨hleft, -, hadvance, -⟩ := Cursor.piece_eq_advance (Cursor.fits_start p) h
  by_cases hmode : x.start.mode = .normal
  · rw [hadvance]
    simp only [Cursor.advance, Cursor.claimOn, hmode]
    exact isLexeme_claimAt hp hin hleft
  · -- A piece of a construct is a comment or a string, which have to keep to nothing here.
    have hkind : x.kind = (x.start.claimOn p
        (firstLine (source.toList.drop (Piece.joined before).length)).1).kind := by
      rw [hadvance]
      rfl
    rcases kind_claimOn_of_ne_normal (p := p) hmode (firstLine _).1 with hcomment | hstring
    · rw [hkind, hcomment]
      exact fun hnormal => absurd hnormal hmode
    · rw [hkind, hstring]
      exact fun hnormal => absurd hnormal hmode

/-- Every token of a source belongs to the language of its kind. -/
theorem scan_lexemes (l : Language) (source : String) (before after : List Piece) (t : Piece)
    (hsplit : l.profile.pieces source = before ++ t :: after) :
    (l.profile.scan source).tokens = (before ++ t :: after).map Piece.token ∧
    IsLexeme l.profile t.start.mode (source.toList.drop (Piece.joined before).length) t.lexeme
      t.kind :=
  ⟨by rw [Profile.tokens_scan, hsplit],
    isLexeme_piece l.wellMarked_profile l.withinLines_profile hsplit⟩

/-- In Python a mark of exclamation is an error, unless the equals sign behind it makes it an
operator. -/
theorem scan_lexemes_exclamation :
    Language.python.profile.pieces "a!b" =
      [⟨{}, .identifier, ['a']⟩] ++ ⟨{ column := 2 }, .error, ['!']⟩ ::
        [⟨{ column := 3 }, .identifier, ['b']⟩] ∧
    "!=" ∈ Language.python.profile.operators ∧
    IsLexeme Language.python.profile .normal ['!', 'b'] ['!'] .error := by
  have hcut : Cursor.cutSteps Language.python.profile 3 {} "a!b".toList =
      some ([⟨{}, .identifier, ['a']⟩] ++ ⟨{ column := 2 }, .error, ['!']⟩ ::
        [⟨{ column := 3 }, .identifier, ['b']⟩]) := by decide +kernel
  have hpieces := Cursor.cutText_of_cutSteps (Cursor.fits_start Language.python.profile) hcut
  have hleft : "a!b".toList.drop (Piece.joined [⟨{}, .identifier, ['a']⟩]).length =
      ['!', 'b'] := by decide +kernel
  have hlexeme := (scan_lexemes .python _ _ _ _ hpieces).2
  rw [hleft] at hlexeme
  exact ⟨hpieces, by decide +kernel, hlexeme⟩

end Scan

end PolyLex
