import PolyLex.Proofs.Scan.Carried
import PolyLex.Proofs.Scan.Positions
import PolyLex.Proofs.Token.Summary

/-!
# Scanning composes at line ends

A source that is cut behind a line feed can be scanned in two parts. The second part goes on with
the cursor that the first one leaves behind, and of that cursor only the mode matters: the rest says
where the tokens stand, not what they are (`Cursor.cutLines_below`). If the first part leaves
nothing open, the second is scanned as a source of its own and its tokens stand so many lines
further down (`scan_append`).

* `Cursor.standsBehind_cutText` — the cursor behind a text stands where the text ends;
* `cutText_append` — the second part is cut from the cursor on that the first leaves behind.
-/

namespace PolyLex

open Text

/-- The token so many lines further down. -/
def Token.below (n : Nat) (t : Token) : Token := { t with line := t.line.map (· + n) }

namespace Summary

/-- Where tokens stand does not count. -/
theorem ofTokens_below (n : Nat) (tokens : List Token) :
    ofTokens (tokens.map (Token.below n)) = ofTokens tokens := by
  rw [ofTokens, List.foldl_map]
  rfl

end Summary

namespace Scan

/-! ### Further down -/

def Cursor.below (n : Nat) (cur : Cursor) : Cursor := { cur with line := cur.line + n }

def Piece.below (n : Nat) (x : Piece) : Piece := { x with start := x.start.below n }

namespace Cursor

variable (n : Nat) (p : Profile) (cur : Cursor)

@[simp] theorem mode_below : (cur.below n).mode = cur.mode := rfl

@[simp] theorem skip_below (lexeme : List Char) (mode : Mode) :
    (cur.below n).skip lexeme mode = (cur.skip lexeme mode).below n := rfl

@[simp] theorem endLine_below (line : List Char) :
    (cur.below n).endLine line = (cur.endLine line).below n := by
  unfold endLine
  split
  · exact congrArg (fun k => Cursor.mk cur.mode k 1) (Nat.add_right_comm ..)
  · rfl

/-- Lines above do not matter to how a construct goes on. -/
theorem continueConstruct_below (kind : Kind) (escapes : Bool) (close line : List Char) :
    (cur.below n).continueConstruct kind escapes close line =
      let (pieces, next, rest) := cur.continueConstruct kind escapes close line
      (pieces.map (Piece.below n), next.below n, rest) := by
  unfold continueConstruct
  cases closeEnd? escapes close line <;> rfl

/-- Lines above do not matter to how a line is resumed. -/
theorem resume_below (line : List Char) : (cur.below n).resume p line =
    let (pieces, next, rest) := cur.resume p line
    (pieces.map (Piece.below n), next.below n, rest) := by
  unfold resume
  rw [mode_below]
  cases cur.mode with
  | normal => rfl
  | blockComment =>
    cases p.blockComment with
    | none => rfl
    | some marks => exact continueConstruct_below ..
  | blockString delimiter => exact continueConstruct_below ..

/-- Lines above do not matter to how the rest of a line is cut. -/
theorem cutRest_below (rest : List Char) : (cur.below n).cutRest p rest =
    ((cur.cutRest p rest).1.map (Piece.below n), (cur.cutRest p rest).2.below n) := by
  fun_induction cutRest p cur rest with
  | case1 => rw [cutRest_nil, List.map_nil]
  | case2 cur c cs claim lexeme pieces last heq ih =>
    rw [heq] at ih
    rw [cutRest_of_ne_nil p _ (List.cons_ne_nil c cs)]
    simp only [skip_below]
    rw [ih]
    rfl

/-- Lines above do not matter to how a line is cut, but for the numbers of lines. -/
theorem cutLine_below (line : List Char) : (cur.below n).cutLine p line =
    ((cur.cutLine p line).1.map (Piece.below n), (cur.cutLine p line).2.below n) := by
  simp only [cutLine, resume_below, cutRest_below, endLine_below, List.map_append]

/-- The line of the cursor decides where the pieces stand, and nothing else. -/
theorem cutLines_below (lines : List (List Char)) : (cur.below n).cutLines p lines =
    ((cur.cutLines p lines).1.map (Piece.below n), (cur.cutLines p lines).2.below n) := by
  induction lines generalizing cur with
  | nil => rfl
  | cons line rest ih => simp only [cutLines, cutLine_below, ih, List.map_append]

end Cursor

/-! ### The cursor behind a text -/

/-- Behind all pieces of a text the cursor stands where the text ends. -/
theorem Cursor.standsBehind_cutText {p : Profile} {pieces : List Piece} :
    ∀ {cur : Cursor} {front text : List Char}, cur.mode.FitsIn p → cur.StandsBehind front →
      (cutText p cur text).1 = pieces → (cutText p cur text).2.StandsBehind (front ++ text) := by
  induction pieces with
  | nil =>
    intro cur front text hfit hcur hpieces
    by_cases htext : text = []
    · rw [htext, cutText_nil, List.append_nil]
      exact hcur
    · rw [cutText_cons hfit htext] at hpieces
      cases hpieces
  | cons x pieces ih =>
    intro cur front text hfit hcur hpieces
    have htext : text ≠ [] := ne_nil_of_cutText (List.cons_ne_nil x pieces) hpieces
    rw [cutText_cons hfit htext] at hpieces ⊢
    have hlast := ih (fits_advance hfit htext) (hcur.advance p text) (List.cons.inj hpieces).2
    have hsplit := List.prefix_iff_eq_append.mp (lexeme_advance_isPrefix p cur text)
    rw [List.append_assoc, hsplit] at hlast
    exact hlast

/-! ### Two sources -/

/-- The scanner meets no fault on a source and comes to this cursor. -/
def ScansTo (p : Profile) (source : String) (last : Cursor) : Prop :=
  Bytes.feedLines p {} (lines source.toList) = .ok ((p.scan source).tokens, last)

/-- A scan ends where its last line leaves the cursor. -/
theorem scansTo_cutText {p : Profile} (hp : p.QuotesInLine) (source : String) :
    ScansTo p source (Cursor.cutText p {} source.toList).2 := by
  rw [ScansTo, Bytes.feedLines_eq hp, Profile.scan, Listing.ofTokens, Cursor.feedLines_eq]
  rfl

/-- The pieces of a text that is cut behind a line feed: those of the first part, and those of the
second from the cursor on that the first leaves behind. -/
theorem cutText_append (p : Profile) (cur : Cursor) {a : List Char}
    (ha : a = [] ∨ a.getLast? = some '\n') (b : List Char) :
    (cur.cutText p (a ++ b)).1 = (cur.cutText p a).1 ++ ((cur.cutText p a).2.cutText p b).1 := by
  rw [Cursor.cutText, lines_append ha, Cursor.cutLines_append]
  rfl

/-- Behind a text that ends in a line feed the cursor stands at the first character of a line. -/
theorem cursor_of_normal {p : Profile} {a : List Char} (ha : a = [] ∨ a.getLast? = some '\n')
    (hmode : (({} : Cursor).cutText p a).2.mode = .normal) :
    (({} : Cursor).cutText p a).2 = ({} : Cursor).below (a.count '\n') := by
  have hplace : (({} : Cursor).cutText p a).2.StandsBehind ([] ++ a) :=
    Cursor.standsBehind_cutText (Cursor.fits_start p) Cursor.standsBehind_start rfl
  have hlastLine : lastLine a = [] := by
    rcases ha with rfl | hlast
    · rfl
    · obtain ⟨front, rfl⟩ := List.getLast?_eq_some_iff.mp hlast
      exact lastLine_concat_lineFeed front
  obtain ⟨hline, hcolumn⟩ := hplace
  rw [List.nil_append] at hline hcolumn
  rw [hlastLine] at hcolumn
  generalize (({} : Cursor).cutText p a).2 = cur at *
  obtain ⟨mode, line, column⟩ := cur
  rw [Cursor.below, Cursor.mk.injEq]
  exact ⟨hmode, hline, hcolumn⟩

/-- Scanning composes at line ends. Of a source that is cut behind a line feed, the tokens of the
first part come first. If the first part leaves nothing open, those of the second follow, so many
lines further down, and the counts add up. No fault is met on any source. -/
theorem scan_append {p : Profile} (hp : p.QuotesInLine) {a b : String}
    (ha : a = "" ∨ a.toList.getLast? = some '\n') :
    (∀ source, ∃ last, ScansTo p source last) ∧
    (p.scan a).tokens <+: (p.scan (a ++ b)).tokens ∧
    ∀ last, ScansTo p a last → last.mode = .normal →
      (p.scan (a ++ b)).tokens =
        (p.scan a).tokens ++ (p.scan b).tokens.map (Token.below (a.toList.count '\n')) ∧
      ∀ name, (p.scan (a ++ b)).summary.get? name =
        ((p.scan a).summary.get? name).merge (· + ·) ((p.scan b).summary.get? name) := by
  have ha : a.toList = [] ∨ a.toList.getLast? = some '\n' :=
    ha.imp_left String.toList_eq_nil_iff.mpr
  have htokens : (p.scan (a ++ b)).tokens = (p.scan a).tokens ++
      (((({} : Cursor).cutText p a.toList).2.cutText p b.toList).1).map Piece.token := by
    have hpieces := cutText_append p {} ha b.toList
    rw [← String.toList_append] at hpieces
    rw [Profile.tokens_scan, Profile.tokens_scan, ← List.map_append]
    exact congrArg _ hpieces
  refine ⟨fun source => ⟨_, scansTo_cutText hp source⟩, ⟨_, htokens.symm⟩, ?_⟩
  intro last hlast hmode
  -- The reader by bytes leaves the same cursor as the one by characters.
  have hcursor : last = (({} : Cursor).cutText p a.toList).2 := by
    have hsame := hlast.symm.trans (scansTo_cutText hp a)
    exact (Prod.mk.inj (Except.ok.inj hsame)).2
  rw [hcursor] at hmode
  -- In normal mode the second text is scanned as if alone, some lines further down.
  have hsplit : (p.scan (a ++ b)).tokens =
      (p.scan a).tokens ++ (p.scan b).tokens.map (Token.below (a.toList.count '\n')) := by
    rw [htokens, cursor_of_normal ha hmode, Cursor.cutText, Cursor.cutLines_below,
      Profile.tokens_scan p b, List.map_map, List.map_map]
    rfl
  refine ⟨hsplit, fun name => ?_⟩
  show (Summary.ofTokens (p.scan (a ++ b)).tokens).get? name = _
  rw [hsplit, Summary.get?_append, Summary.ofTokens_below]
  rfl

/-- A C source that is cut behind a line which ends in an open quote and a backslash. Neither
matters to the next line. -/
theorem scan_append_openQuote :
    Language.c.profile.QuotesInLine ∧ "\"a\\\n".toList.getLast? = some '\n' ∧
    ScansTo Language.c.profile "\"a\\\n" { line := 2 } ∧
    (Language.c.profile.scan ("\"a\\\n" ++ "b\"")).tokens =
      (Language.c.profile.scan "\"a\\\n").tokens ++
        [.located .identifier ['b'] 2 1, .located .string ['"'] 2 2] ∧
    (Language.c.profile.scan ("\"a\\\n" ++ "b\"")).summary.get? "string" = some 2 := by
  have hquotes := Language.c.wellMarked_profile.quotesInLine
  have hlast : "\"a\\\n".toList.getLast? = some '\n' := by decide +kernel
  have hscan : ScansTo Language.c.profile "\"a\\\n" { line := 2 } := by
    rw [← show (Cursor.cutText Language.c.profile {} "\"a\\\n".toList).2 = { line := 2 } by
      decide +kernel]
    exact scansTo_cutText hquotes _
  -- The quote that the first text left open has ended with its line.
  have hsecond : (Language.c.profile.scan "b\"").tokens =
      [.located .identifier ['b'] 1 1, .located .string ['"'] 1 2] := by decide +kernel
  obtain ⟨-, -, hnormal⟩ := scan_append hquotes (a := "\"a\\\n") (b := "b\"") (.inr hlast)
  obtain ⟨htokens, hsummary⟩ := hnormal _ hscan rfl
  rw [hsecond] at htokens
  exact ⟨hquotes, hlast, hscan, htokens, (hsummary "string").trans (by decide +kernel)⟩

end Scan

end PolyLex
