import Mathlib.Data.List.DropRight
import PolyLex.Proofs.Scan.Coverage

/-!
# Where tokens stand

The scanner counts along: a lexeme moves the column on, the line feed at the end of a line starts
the next one. Here the place of a token is said without counting along, from the text before it:

    t.line   = 1 + the line feeds of that text
    t.column = 1 + the characters of its last line

* `Cursor.StandsBehind.skip` — one lexeme keeps a cursor where the text before it says;
* `Cursor.standsBehind_of_split` — so do all lexemes of a text, one after the other;
* `scan_positions` — the place of each token of a source.
-/

namespace PolyLex

open Text

namespace Text

/-- The characters behind the last line feed of a text, which are all of them if it has none. -/
def lastLine (cs : List Char) : List Char := cs.rtakeWhile (· != '\n')

/-- A text without a line feed makes the last line longer. -/
theorem lastLine_append_of_not_mem {more : List Char} (h : '\n' ∉ more) (cs : List Char) :
    lastLine (cs ++ more) = lastLine cs ++ more := by
  induction more using List.reverseRecOn with
  | nil => simp
  | append_singleton more c ih =>
    rw [List.mem_append, List.mem_singleton, not_or] at h
    obtain ⟨hmore, hc⟩ := h
    have hkeep : (c != '\n') = true := by simpa using Ne.symm hc
    rw [← List.append_assoc, ← List.append_assoc, ← ih hmore]
    exact List.rtakeWhile_concat_pos _ _ _ hkeep

/-- Behind a line feed the last line is empty. -/
theorem lastLine_concat_lineFeed (cs : List Char) : lastLine (cs ++ ['\n']) = [] :=
  List.rtakeWhile_concat_neg _ _ _ (by decide)

theorem length_lastLine_le (cs : List Char) : (lastLine cs).length ≤ cs.length :=
  (List.rtakeWhile_suffix _ cs).length_le

/-- A line feed stands at most at the end of what is taken from a line. -/
theorem not_mem_dropLast_take_firstLine (cs : List Char) (k : Nat) :
    '\n' ∉ ((firstLine cs).1.take k).dropLast := by
  rw [List.dropLast_eq_take, List.take_take, List.length_take]
  by_cases hline : (firstLine cs).1 = []
  · simp [hline]
  · apply not_mem_take_firstLine
    have hpos := List.length_pos_iff.mpr hline
    omega

/-- A text whose only line feed can be its last character has none, or one there. -/
theorem eq_concat_of_not_mem_dropLast {w : List Char} (h : '\n' ∉ w.dropLast) :
    '\n' ∉ w ∨ w = w.dropLast ++ ['\n'] := by
  rcases List.eq_nil_or_concat' w with rfl | ⟨v, c, rfl⟩
  · left
    simp
  · rw [List.dropLast_concat] at h ⊢
    by_cases hc : c = '\n'
    · right
      rw [hc]
    · left
      simp [h, Ne.symm hc]

end Text

/-- The token stands where the text before it ends, and no line ends inside its lexeme. -/
structure Token.StandsBehind (t : Token) (front : List Char) : Prop where
  line : t.line = some (1 + front.count '\n')
  column : t.column = some (1 + (lastLine front).length)
  inLine : '\n' ∉ t.lexeme.toList.dropLast

namespace Scan

namespace Cursor

/-- The cursor stands where a text ends. -/
structure StandsBehind (cur : Cursor) (front : List Char) : Prop where
  line : cur.line = 1 + front.count '\n'
  column : cur.column = 1 + (lastLine front).length

theorem standsBehind_start : ({} : Cursor).StandsBehind [] := ⟨rfl, rfl⟩

/-- A lexeme moves the cursor to the end of the text that it makes longer. -/
theorem StandsBehind.skip {cur : Cursor} {front w : List Char} (h : cur.StandsBehind front)
    (hw : '\n' ∉ w.dropLast) (mode : Mode) :
    ((cur.skip w mode).endLine w).StandsBehind (front ++ w) := by
  rcases eq_concat_of_not_mem_dropLast hw with hmem | hlast
  · rw [endLine_of_not_mem _ hmem]
    constructor
    · show cur.line = _
      rw [h.line, List.count_append, List.count_eq_zero_of_not_mem hmem]
      rfl
    · show cur.column + w.length = _
      rw [h.column, lastLine_append_of_not_mem hmem, List.length_append, Nat.add_assoc]
  · -- the lexeme ends its line, so what was counted in the line no longer matters
    generalize w.dropLast = v at hw hlast
    subst hlast
    have hend : (v ++ ['\n']).getLast? = some '\n' := List.getLast?_concat
    rw [endLine, if_pos hend, ← List.append_assoc]
    constructor
    · show cur.line + 1 = _
      rw [h.line, List.count_append, List.count_append, List.count_eq_zero_of_not_mem hw]
      rfl
    · rw [lastLine_concat_lineFeed]
      rfl

/-- One piece: the cursor behind it stands where the text before it and its lexeme end. -/
theorem StandsBehind.advance {cur : Cursor} {front : List Char} (h : cur.StandsBehind front)
    (p : Profile) (text : List Char) :
    (cur.advance p text).2.StandsBehind (front ++ (cur.advance p text).1.lexeme) :=
  h.skip (not_mem_dropLast_take_firstLine _ _) _

/-- Only a text that is not empty has pieces. -/
theorem ne_nil_of_cutText {p : Profile} {cur : Cursor} {text : List Char} {xs : List Piece}
    (hne : xs ≠ []) (h : (cutText p cur text).1 = xs) : text ≠ [] := by
  rintro rfl
  rw [cutText_nil] at h
  exact hne h.symm

/-- All pieces of a text: each starts where the text before it and the pieces before it end. -/
theorem standsBehind_of_split {p : Profile} {before after : List Piece} {x : Piece} :
    ∀ {cur : Cursor} {front text : List Char}, cur.mode.FitsIn p → cur.StandsBehind front →
      (cutText p cur text).1 = before ++ x :: after →
      x.start.StandsBehind (front ++ Piece.joined before) := by
  induction before with
  | nil =>
    intro cur front text hfit hcur hsplit
    have htext : text ≠ [] := ne_nil_of_cutText (List.cons_ne_nil x after) hsplit
    rw [List.nil_append, cutText_cons hfit htext] at hsplit
    obtain ⟨hx, -⟩ := List.cons.inj hsplit
    rw [← hx, Piece.joined, List.flatMap_nil, List.append_nil]
    exact hcur
  | cons y before ih =>
    intro cur front text hfit hcur hsplit
    have htext : text ≠ [] := ne_nil_of_cutText (List.cons_ne_nil y _) hsplit
    rw [cutText_cons hfit htext] at hsplit
    obtain ⟨hy, hnext⟩ := List.cons.inj hsplit
    have hx := ih (fits_advance hfit htext) (hcur.advance p text) hnext
    rw [hy, List.append_assoc, ← Piece.joined_cons] at hx
    exact hx

end Cursor

/-! ### The tokens of a source -/

/-- The place of a piece of a source. -/
theorem standsBehind_piece {p : Profile} {source : String} {before after : List Piece} {x : Piece}
    (h : p.pieces source = before ++ x :: after) : x.start.StandsBehind (Piece.joined before) :=
  Cursor.standsBehind_of_split (Cursor.fits_start p) Cursor.standsBehind_start h

/-- A line feed comes last in a piece or not at all. -/
theorem inLine_piece {p : Profile} {source : String} {before after : List Piece} {x : Piece}
    (h : p.pieces source = before ++ x :: after) : '\n' ∉ x.lexeme.dropLast := by
  obtain ⟨-, -, hx, -⟩ := Cursor.piece_eq_advance (Cursor.fits_start p) h
  rw [hx]
  exact not_mem_dropLast_take_firstLine _ _

/-- Positions are exact: the scanner meets no fault on a source, and each of its tokens stands where
the lexemes before it end, a line feed being at most its last character. -/
theorem scan_positions {p : Profile} (hp : p.QuotesInLine) (source : String) :
    (∃ last, Bytes.feedLines p {} (lines source.toList) = .ok ((p.scan source).tokens, last)) ∧
    ∀ (before after : List Token) (t : Token), (p.scan source).tokens = before ++ t :: after →
      t.StandsBehind (Token.joined before).toList := by
  refine ⟨⟨_, Bytes.feedLines_eq hp {} _⟩, ?_⟩
  intro before after t hsplit
  rw [Profile.tokens_scan] at hsplit
  obtain ⟨xs, ys, hpieces, rfl, hys⟩ := List.map_eq_append_iff.mp hsplit
  obtain ⟨x, zs, rfl, rfl, rfl⟩ := List.map_eq_cons_iff.mp hys
  have hplace := standsBehind_piece hpieces
  rw [Piece.joined_tokens, String.toList_ofList]
  constructor
  · exact congrArg some hplace.line
  · exact congrArg some hplace.column
  · show '\n' ∉ (String.ofList x.lexeme).toList.dropLast
    rw [String.toList_ofList]
    exact inLine_piece hpieces

/-- A C source with a letter of two bytes, a comment over two lines that end in pairs of carriage
return and line feed, and a word behind it. -/
theorem scan_positions_comment :
    Language.c.profile.QuotesInLine ∧
    (Language.c.profile.scan "é/*\r\nü*/x").tokens =
      [.located .identifier ['é'] 1 1, .located .comment "/*\r\n".toList 1 2,
        .located .comment "ü*/".toList 2 1] ++ .located .identifier ['x'] 2 4 :: [] ∧
    (Token.located .identifier ['x'] 2 4).StandsBehind "é/*\r\nü*/".toList := by
  have hquotes := Language.c.wellMarked_profile.quotesInLine
  have hcut : Cursor.cutSteps Language.c.profile 4 {} "é/*\r\nü*/x".toList =
      some [⟨{}, .identifier, ['é']⟩, ⟨{ column := 2 }, .comment, "/*\r\n".toList⟩,
        ⟨{ mode := .blockComment, line := 2 }, .comment, "ü*/".toList⟩,
        ⟨{ line := 2, column := 4 }, .identifier, ['x']⟩] := by decide +kernel
  have htokens : (Language.c.profile.scan "é/*\r\nü*/x").tokens =
      [.located .identifier ['é'] 1 1, .located .comment "/*\r\n".toList 1 2,
        .located .comment "ü*/".toList 2 1] ++ .located .identifier ['x'] 2 4 :: [] := by
    rw [Profile.tokens_scan]
    exact congrArg (List.map Piece.token)
      (Cursor.cutText_of_cutSteps (Cursor.fits_start _) hcut)
  exact ⟨hquotes, htokens, (scan_positions hquotes _).2 _ _ _ htokens⟩

end Scan

end PolyLex
