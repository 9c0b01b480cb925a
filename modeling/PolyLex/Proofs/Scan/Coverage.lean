import PolyLex.Proofs.Scan.Advance
import PolyLex.Proofs.Scan.Bytes

/-!
# Every character lies in one token

The tokens of whatever is fed to the scanner, joined, are what was fed, and no cut on the way goes
wrong (`feedLines_cover`). Joining alone would not show a length that is too large, since taking
more characters than there are takes what there is; that no length is too large is what the scanner
by byte offsets adds.

In a whole source no token is empty unless a construct closes on an empty marker.
-/

namespace PolyLex

open Text

namespace Scan

/-! ### Joined pieces -/

theorem Piece.joined_append (xs ys : List Piece) : joined (xs ++ ys) = joined xs ++ joined ys :=
  List.flatMap_append

theorem Piece.joined_cons (x : Piece) (xs : List Piece) : joined (x :: xs) = x.lexeme ++ joined xs :=
  List.flatMap_cons

theorem ofList_flatten (texts : List String) :
    String.ofList (texts.map String.toList).flatten = String.join texts := by
  induction texts with
  | nil => rfl
  | cons s texts ih =>
    rw [List.map_cons, List.flatten_cons, String.ofList_append, ih, String.ofList_toList,
      String.join_cons]

/-- The tokens of pieces make up the text of the pieces. -/
theorem Piece.joined_tokens (xs : List Piece) :
    Token.joined (xs.map Piece.token) = String.ofList (joined xs) := by
  induction xs with
  | nil => rfl
  | cons x xs ih =>
    rw [Token.joined] at ih ⊢
    rw [List.map_cons, List.map_cons, String.join_cons, ih, joined_cons, String.ofList_append]
    rfl

namespace Cursor

/-- The pieces of a rest of a line are that rest. -/
theorem joined_cutRest (p : Profile) (cur : Cursor) (rest : List Char) :
    Piece.joined (cutRest p cur rest).1 = rest := by
  fun_induction cutRest p cur rest with
  | case1 => rfl
  | case2 cur c cs claim lexeme pieces last heq ih =>
    rw [heq] at ih
    rw [Piece.joined_cons, ih]
    exact List.take_append_drop claim.length (c :: cs)

/-- What is taken of an open construct and what is left of the line are the line. -/
theorem joined_resume (p : Profile) (cur : Cursor) (line : List Char) :
    Piece.joined (resume p cur line).1 ++ (resume p cur line).2.2 = line := by
  have hconstruct : ∀ (kind : Kind) (escapes : Bool) (close : List Char),
      Piece.joined (cur.continueConstruct kind escapes close line).1 ++
        (cur.continueConstruct kind escapes close line).2.2 = line := by
    intro kind escapes close
    rw [continueConstruct_eq_openConstruct, Piece.joined, List.flatMap_singleton]
    exact List.take_append_drop _ line
  unfold resume
  split
  · rfl
  · split
    · exact hconstruct ..
    · rfl
  · exact hconstruct ..

theorem joined_cutLine (p : Profile) (cur : Cursor) (line : List Char) :
    Piece.joined (cutLine p cur line).1 = line := by
  rw [cutLine, Piece.joined_append, joined_cutRest]
  exact joined_resume p cur line

theorem joined_cutLines (p : Profile) : ∀ (cur : Cursor) (lines : List (List Char)),
    Piece.joined (cutLines p cur lines).1 = lines.flatten
  | _, [] => rfl
  | cur, line :: rest => by
    rw [cutLines, Piece.joined_append, joined_cutLine, joined_cutLines p _ rest, List.flatten_cons]

/-! ### Pieces take characters -/

/-- A piece takes at least one character of its line. -/
theorem length_claimOn_pos {p : Profile} {cur : Cursor} {line : List Char}
    (hp : p.ClosersNonempty) (hfit : cur.mode.FitsIn p) (hline : line ≠ []) :
    0 < (cur.claimOn p line).length := by
  -- An open construct takes up to its closing mark, which is not empty, or the whole line.
  have hconstruct : ∀ (kind : Kind) (escapes : Bool) (close : String) (mode : Mode), close ≠ "" →
      0 < (Category.openConstruct kind escapes [] close.toList line line mode).length := by
    intro kind escapes close mode hclose
    have hpos : 0 < close.toList.length := by
      rw [List.length_pos_iff]
      intro hnil
      exact hclose (String.toList_eq_nil_iff.mp hnil)
    rw [Category.openConstruct]
    split
    · next n hn =>
      obtain ⟨front, back, -, rfl⟩ := exists_of_closeEnd?_eq_some hn
      show 0 < 0 + (front.length + close.toList.length)
      omega
    · exact List.length_pos_iff.mpr hline
  unfold claimOn
  cases hmode : cur.mode with
  | normal => exact length_claimAt_pos p line
  | blockComment =>
    rw [hmode] at hfit
    obtain ⟨marks, hmarks⟩ := Option.isSome_iff_exists.mp hfit
    rw [hmarks]
    exact hconstruct _ _ marks.2 _ (hp.1 marks hmarks)
  | blockString delimiter =>
    rw [hmode] at hfit
    exact hconstruct _ _ delimiter _ (hp.2 delimiter hfit)

/-- What is cut off a text opens it. -/
theorem lexeme_advance_isPrefix (p : Profile) (cur : Cursor) (text : List Char) :
    (advance p cur text).1.lexeme <+: text :=
  (List.take_prefix _ _).trans (firstLine_isPrefix text)

/-- Something is cut off a text that is not empty. -/
theorem length_lexeme_advance_pos {p : Profile} {cur : Cursor} {text : List Char}
    (hp : p.ClosersNonempty) (hfit : cur.mode.FitsIn p) (htext : text ≠ []) :
    0 < (advance p cur text).1.lexeme.length := by
  have hline := firstLine_ne_nil htext
  have hpos := length_claimOn_pos hp hfit hline
  have hlen := List.length_pos_iff.mpr hline
  show 0 < (List.take _ _).length
  rw [List.length_take]
  omega

end Cursor

/-- No piece of a source is empty. -/
theorem lexeme_ne_nil {p : Profile} (hp : p.ClosersNonempty) {source : String} {x : Piece}
    (hx : x ∈ p.pieces source) : x.lexeme ≠ [] := by
  obtain ⟨before, after, hsplit⟩ := List.append_of_mem hx
  obtain ⟨hleft, hfit, hadvance, -⟩ := Cursor.piece_eq_advance (Cursor.fits_start p) hsplit
  rw [← List.length_pos_iff, hadvance]
  exact Cursor.length_lexeme_advance_pos hp hfit hleft

/-! ### Coverage -/

theorem joined_pieces (p : Profile) (source : String) :
    Piece.joined (p.pieces source) = source.toList := by
  rw [Profile.pieces, Cursor.joined_cutLines, flatten_lines]

/-- There are no more pieces than characters, if none is empty. -/
theorem length_le_joined {xs : List Piece} (h : ∀ x ∈ xs, x.lexeme ≠ []) :
    xs.length ≤ (Piece.joined xs).length := by
  induction xs with
  | nil => exact Nat.zero_le _
  | cons x xs ih =>
    obtain ⟨hx, hxs⟩ := List.forall_mem_cons.mp h
    have hpos := List.length_pos_iff.mpr hx
    have hle := ih hxs
    rw [Piece.joined_cons, List.length_append, List.length_cons]
    omega

/-- Fewer characters stand before a piece than the source has. -/
theorem length_joined_lt {p : Profile} (hp : p.ClosersNonempty) {source : String}
    {before after : List Piece} {x : Piece} (h : p.pieces source = before ++ x :: after) :
    (Piece.joined before).length < source.length := by
  have hx : x.lexeme ≠ [] := lexeme_ne_nil hp (h ▸ List.mem_append_right before List.mem_cons_self)
  have hpos := List.length_pos_iff.mpr hx
  have hall := congrArg List.length (joined_pieces p source)
  rw [h, Piece.joined_append, Piece.joined_cons, String.length_toList, List.length_append,
    List.length_append] at hall
  omega

/-- A scan keeps the source that it is of. -/
theorem source_scan (p : Profile) (source : String) : (p.scan source).source = source := by
  rw [Listing.source, Profile.tokens_scan, Piece.joined_tokens, joined_pieces,
    String.ofList_toList]

/-- The scanner loses nothing, doubles nothing and meets no fault, whatever is fed to it; in a whole
source no token is empty. -/
theorem feedLines_cover :
    (∀ l : Language, l.profile.QuotesInLine) ∧
    ∀ p : Profile, p.QuotesInLine →
      (∀ fed : List String,
        Bytes.feedLines p {} (fed.map String.toList) =
          .ok (Cursor.feedLines p {} (fed.map String.toList)) ∧
        Token.joined (Cursor.feedLines p {} (fed.map String.toList)).1 = String.join fed) ∧
      (∀ source : String, (p.scan source).source = source) ∧
      (p.ClosersNonempty → ∀ source : String, ∀ t ∈ (p.scan source).tokens, t.lexeme ≠ "") := by
  refine ⟨fun l => l.wellMarked_profile.quotesInLine, fun p hp => ⟨fun fed => ⟨?_, ?_⟩, ?_, ?_⟩⟩
  -- The scanner by offsets has the fed strings for its lines, whatever they are.
  · exact Bytes.feedLines_eq hp {} _
  · rw [Cursor.feedLines_eq, Piece.joined_tokens, Cursor.joined_cutLines, ofList_flatten]
  · exact source_scan p
  · intro hclosers source t ht
    rw [Profile.tokens_scan] at ht
    obtain ⟨x, hx, rfl⟩ := List.mem_map.mp ht
    intro hempty
    exact lexeme_ne_nil hclosers hx (String.ofList_eq_empty_iff.mp hempty)

/-- A Python string that is fed in parts, with an escape cut in two and an empty string between
them, and a source whose first token is a word. -/
theorem feedLines_cover_python :
    Language.python.profile.QuotesInLine ∧ Language.python.profile.ClosersNonempty ∧
    Token.joined (Cursor.feedLines Language.python.profile {}
      (["s = '''é\\", "", "\n'''"].map String.toList)).1 = "s = '''é\\\n'''" ∧
    Token.located .identifier ['é'] 1 1 ∈ (Language.python.profile.scan "é=1").tokens ∧
    (Token.located .identifier ['é'] 1 1).lexeme ≠ "" := by
  have hquotes := Language.python.wellMarked_profile.quotesInLine
  have hclosers := Language.python.wellMarked_profile.closersNonempty
  obtain ⟨hfed, -, hne⟩ := feedLines_cover.2 Language.python.profile hquotes
  have hcut : Cursor.cutSteps Language.python.profile 3 {} "é=1".toList =
      some [⟨{}, .identifier, ['é']⟩, ⟨{ column := 2 }, .operator, ['=']⟩,
        ⟨{ column := 3 }, .number, ['1']⟩] := by decide +kernel
  have hmem : Token.located .identifier ['é'] 1 1 ∈
      (Language.python.profile.scan "é=1").tokens := by
    rw [Profile.tokens_scan, Profile.pieces]
    show _ ∈ (Cursor.cutText Language.python.profile {} "é=1".toList).1.map Piece.token
    rw [Cursor.cutText_of_cutSteps (Cursor.fits_start _) hcut]
    exact List.mem_cons_self
  exact ⟨hquotes, hclosers, (hfed _).2.trans (by decide), hmem, hne hclosers _ _ hmem⟩

end Scan

end PolyLex
