import PolyLex.Proofs.Scan.Construct
import PolyLex.Proofs.Scan.Coverage

/-!
# Constructs carried from line to line

The scanner looks for the end of a comment or string in one line at a time. What it finds is what a
search through the whole text finds (`scan_carry`): the pieces from the opening marker on, one per
line, cover the text through the first place where the construct closes, or all of it.

* `Spans.close_here`, `Spans.go_on`: one line decides, or the lines below it do.
* `covers_of_claim`: one line of the scanner, opened there or carried there.
* `covers_carried`: a carried construct, by induction over the lines that are left.
-/

namespace PolyLex.Scan

open Text

/-! ### The search, line by line -/

section Search

variable {escapes : Bool} {lead close body more w : List Char}

/-- A line that closes the construct closes it in the text. -/
theorem Spans.close_here (hsearch : Searchable escapes close) {n : Nat}
    (hn : closeEnd? escapes close body = some n) :
    Spans escapes lead close (lead ++ (body ++ more)) (lead ++ body.take n) := by
  obtain ⟨i, hi, rfl⟩ := (closeEnd?_eq_some_iff hsearch).mp hn
  have hle := standsAt_length_le hsearch.1 hi.1.1
  refine ⟨body ++ more, rfl, .inl ⟨i, hi.append hsearch.1 more, ?_⟩⟩
  rw [List.take_append_of_le_length hle]

/-- A line that does not close the construct leaves it to the lines below. -/
theorem Spans.go_on (hsearch : Searchable escapes close) (hclose : '\n' ∉ close)
    (hn : closeEnd? escapes close body = none)
    (hlast : body.getLast? = some '\n' ∨ more = []) (h : Spans escapes [] close more w) :
    Spans escapes lead close (lead ++ (body ++ more)) (lead ++ (body ++ w)) := by
  have hno := (closeEnd?_eq_none_iff hsearch).mp hn
  obtain ⟨_, rfl, hw⟩ := h
  refine ⟨_, rfl, ?_⟩
  -- A line that ends leaves the search to the next one; otherwise the text is over.
  rcases hlast with hlast | rfl
  · rcases hw with ⟨i, hi, rfl⟩ | ⟨hnone, rfl⟩
    · refine .inl ⟨body.length + i, firstClose_line hlast hclose hno hi, ?_⟩
      rw [List.nil_append, Nat.add_assoc, List.take_length_add_append]
    · exact .inr ⟨not_closesAt_line hlast hclose hno hnone, rfl⟩
  · have hnil : w = [] := by
      rcases hw with ⟨i, -, rfl⟩ | ⟨-, rfl⟩
      · simp
      · rfl
    rw [hnil, List.append_nil]
    exact .inr ⟨hno, rfl⟩

/-- In an empty text there is nothing left to span. -/
theorem spans_nil (hsearch : Searchable escapes close) : Spans escapes [] close [] [] :=
  ⟨[], rfl, .inr ⟨(closeEnd?_eq_none_iff hsearch).mp rfl, rfl⟩⟩

/-- A construct begins with its opening mark. -/
theorem Spans.lead_isPrefix {text : List Char} (h : Spans escapes lead close text w) :
    lead <+: w := by
  obtain ⟨rest, rfl, ⟨i, -, rfl⟩ | ⟨-, rfl⟩⟩ := h
  · exact List.prefix_append _ _
  · exact List.prefix_append _ _

end Search

/-! ### The pieces of a construct -/

/-- The pieces `own` are those of the construct and cover `w`, the opening of the text that the
construct spans; the pieces `others` follow in normal mode. -/
structure Construct.Covers (c : Construct) (lead text w : List Char) (own others : List Piece) :
    Prop where
  spans : Spans c.escapes lead c.close text w
  /-- There is one piece for each line. -/
  lexemes : own.map Piece.lexeme = lines w
  kinds : ∀ x ∈ own, x.kind = c.kind
  text_eq : text = w ++ Piece.joined others
  normal : ∀ x ∈ others.head?, x.start.mode = .normal

namespace Cursor

variable {p : Profile} {c : Construct} {cur : Cursor} {text : List Char}

theorem joined_cutText (p : Profile) (cur : Cursor) (text : List Char) :
    Piece.joined (cutText p cur text).1 = text := by
  rw [cutText, joined_cutLines, flatten_lines]

/-- The first piece of a text starts at the cursor. -/
theorem start_of_mem_head? (hfit : cur.mode.FitsIn p) {x : Piece}
    (hx : x ∈ (cutText p cur text).1.head?) : x.start = cur := by
  by_cases htext : text = []
  · rw [htext, cutText_nil] at hx
    cases hx
  · rw [cutText_cons hfit htext] at hx
    cases hx
    rfl

/-- One line of a construct, whether it was opened there or before: it ends in that line, or the
rest of it is what the lines below make of it. -/
theorem covers_of_claim {lead body : List Char} (hsearch : Searchable c.escapes c.close)
    (hclose : '\n' ∉ c.close) (hfit : cur.mode.FitsIn p) (htext : text ≠ [])
    (hline : (firstLine text).1 = lead ++ body)
    (hlast : body.getLast? = some '\n' ∨ (firstLine text).2 = [])
    (hclaim : cur.claimOn p (lead ++ body) =
      Category.openConstruct c.kind c.escapes lead c.close (lead ++ body) body c.mode)
    (hbelow : ∀ next : Cursor, next.mode = c.mode → ∃ own others w,
      (cutText p next (firstLine text).2).1 = own ++ others ∧
        c.Covers [] (firstLine text).2 w own others) :
    ∃ own others w, (cutText p cur text).1 = own ++ others ∧ c.Covers lead text w own others := by
  have happend : text = lead ++ (body ++ (firstLine text).2) := by
    rw [← List.append_assoc, ← hline, firstLine_append]
  have hcut := congrArg Prod.fst (cutText_cons hfit htext)
  have hnext := fits_advance hfit htext
  simp only [advance, hline, hclaim, Category.openConstruct] at hcut hnext
  cases hn : closeEnd? c.escapes c.close body with
  | some n =>
    -- The piece ends with the close marker and is a line of its own.
    rw [hn] at hcut hnext
    have hle := closeEnd?_le hn
    have hpos : 0 < n := by
      obtain ⟨i, -, rfl⟩ := (closeEnd?_eq_some_iff hsearch).mp hn
      exact Nat.lt_of_lt_of_le (List.length_pos_iff.mpr hsearch.1) (Nat.le_add_left _ _)
    have htake : (lead ++ body).take (lead.length + n) = lead ++ body.take n :=
      List.take_length_add_append _
    have hlines : lines ((firstLine text).1.take (lead.length + n)) =
        [(firstLine text).1.take (lead.length + n)] := by
      apply lines_take_firstLine
      · omega
      · rw [hline, List.length_append]
        omega
    simp only [hline, htake] at hcut hnext hlines
    refine ⟨[_], _, lead ++ body.take n, hcut, ?_⟩
    constructor
    · rw [happend]
      exact Spans.close_here hsearch hn
    · exact hlines.symm
    · simp
    · have hback : text = (lead ++ body.take n) ++ (body.drop n ++ (firstLine text).2) := by
        rw [List.append_assoc, ← List.append_assoc (body.take n), List.take_append_drop]
        exact happend
      generalize body.drop n ++ (firstLine text).2 = back at hback
      rw [joined_cutText, hback, List.drop_left]
    · intro x hx
      rw [start_of_mem_head? hnext hx, mode_endLine]
      rfl
  | none =>
    -- The piece is the whole line, and the lines below go on with the construct.
    rw [hn] at hcut hnext
    have hdrop : text.drop (lead ++ body).length = (firstLine text).2 := by
      rw [← hline, drop_length_firstLine]
    simp only [List.take_length, hdrop] at hcut
    obtain ⟨own, others, w, hsplit, hcovers⟩ :=
      hbelow ((cur.skip (lead ++ body) c.mode).endLine (lead ++ body)) (mode_endLine _ _)
    have hw : (firstLine text).1.getLast? = some '\n' ∨ w = [] := by
      rcases hlast with hlast | hnil
      · left
        rw [hline, List.getLast?_append, hlast]
        rfl
      · right
        have hnothing := hcovers.text_eq
        rw [hnil] at hnothing
        exact (List.append_eq_nil_iff.mp hnothing.symm).1
    refine ⟨_ :: own, others, lead ++ (body ++ w), by rw [hcut, hsplit]; rfl, ?_⟩
    constructor
    · rw [happend]
      exact Spans.go_on hsearch hclose hn hlast hcovers.spans
    · rw [List.map_cons, hcovers.lexemes, ← List.append_assoc, ← hline, lines_line htext hw]
    · intro x hx
      rcases List.mem_cons.mp hx with rfl | hx
      · rfl
      · exact hcovers.kinds x hx
    · rw [List.append_assoc, List.append_assoc, ← hcovers.text_eq]
      exact happend
    · exact hcovers.normal

/-- In the mode of a construct the scanner looks for its close marker only. -/
theorem claimOn_of_mode (hc : c ∈ p.constructs) (hmode : cur.mode = c.mode) (line : List Char) :
    cur.claimOn p line =
      Category.openConstruct c.kind c.escapes [] c.close line line c.mode := by
  unfold claimOn
  rcases Construct.mem_constructs_iff.mp hc with ⟨marks, hmarks, rfl⟩ | ⟨delimiter, -, rfl⟩
  · have hmarks : p.blockComment = some marks := hmarks
    rw [hmode, hmarks]
    rfl
  · rw [hmode]
    rfl

theorem fits_of_mode (hc : c ∈ p.constructs) (hmode : cur.mode = c.mode) : cur.mode.FitsIn p := by
  rw [hmode]
  rcases Construct.mem_constructs_iff.mp hc with ⟨marks, hmarks, rfl⟩ | ⟨delimiter, hmem, rfl⟩
  · exact Option.isSome_of_mem hmarks
  · exact hmem

/-- A construct that is carried into a text covers the opening of it that it spans. -/
theorem covers_carried (hsearch : Searchable c.escapes c.close) (hclose : '\n' ∉ c.close)
    (hc : c ∈ p.constructs) (text : List Char) : ∀ cur : Cursor, cur.mode = c.mode →
      ∃ own others w, (cutText p cur text).1 = own ++ others ∧
        c.Covers [] text w own others := by
  -- One line is cut off at a time; the lines below it are fewer.
  fun_induction lines text with
  | case1 =>
    intro cur hmode
    refine ⟨[], [], [], by rw [cutText_nil]; rfl, ?_⟩
    constructor
    · exact spans_nil hsearch
    · rw [lines_nil]
      rfl
    · intro x hx
      cases hx
    · rfl
    · intro x hx
      cases hx
  | case2 d ds ih =>
    intro cur hmode
    have hlast : (firstLine (d :: ds)).1.getLast? = some '\n' ∨ (firstLine (d :: ds)).2 = [] :=
      (firstLine_cases (d :: ds)).imp_right And.left
    exact covers_of_claim hsearch hclose (fits_of_mode hc hmode) (List.cons_ne_nil d ds) rfl hlast
      (claimOn_of_mode hc hmode _) ih

/-- A construct that is opened covers the opening of the text that it spans. -/
theorem covers_opened (hp : p.WellMarked) (hapart : c.StandsApart p) (hc : c ∈ p.constructs)
    (hmode : cur.mode = .normal) (hlead : c.lead <+: text) :
    ∃ own others w, (cutText p cur text).1 = own ++ others ∧
      c.Covers c.lead text w own others := by
  obtain ⟨body, rfl⟩ := hlead
  have hsearch := Construct.searchable hp hc
  have hinLine : '\n' ∉ c.lead := by
    intro hmem
    exact (hapart.lead_inLine '\n' hmem).1 rfl
  -- The opening mark lies within the first line.
  have hfirst := firstLine_append_of_not_mem hinLine body
  have hline : (firstLine (c.lead ++ body)).1 = c.lead ++ (firstLine body).1 := by rw [hfirst]
  have hrest : (firstLine (c.lead ++ body)).2 = (firstLine body).2 := by rw [hfirst]
  have htext : c.lead ++ body ≠ [] := by
    apply List.append_ne_nil_of_left_ne_nil
    exact List.ne_nil_of_length_pos (Nat.zero_lt_of_lt hapart.one_lt_length)
  have hfit : cur.mode.FitsIn p := by
    rw [hmode]
    trivial
  refine covers_of_claim hsearch hapart.close_inLine hfit htext hline ?_ ?_ ?_
  · rw [hrest]
    exact (firstLine_cases body).imp_right And.left
  · unfold claimOn
    rw [hmode]
    exact Construct.claimAt_construct hp hapart hc _
  · exact covers_carried hsearch hapart.close_inLine hc _

end Cursor

/-! ### The tokens of a source -/

/-- Carrying a construct from line to line comes to the same as a search through the whole text:
where the opening marker of a comment or block string stands at the start of a token, the tokens
from there on, one per line, are of the kind of the construct and cover the text through the first
place where it closes, or all of the text if it does not close; what follows starts in normal
mode. -/
theorem scan_carry (l : Language) (c : Construct) (hc : c ∈ l.profile.constructs)
    (source : String) (before after : List Piece) (t : Piece)
    (hsplit : l.profile.pieces source = before ++ t :: after) (hmode : t.start.mode = .normal)
    (hlead : c.lead <+: source.toList.drop (Piece.joined before).length) :
    (l.profile.scan source).tokens = (before ++ t :: after).map Piece.token ∧
    ∃ more others w, after = more ++ others ∧
      c.Covers c.lead (source.toList.drop (Piece.joined before).length) w (t :: more) others := by
  refine ⟨by rw [Profile.tokens_scan, hsplit], ?_⟩
  have hp := l.wellMarked_profile
  have hapart := standsApart_constructs l c hc
  obtain ⟨hleft, hfit, hadvance, hbelow⟩ :=
    Cursor.piece_eq_advance (Cursor.fits_start l.profile) hsplit
  have hpieces : (Cursor.cutText l.profile t.start
      (source.toList.drop (Piece.joined before).length)).1 = t :: after := by
    rw [Cursor.cutText_cons hfit hleft]
    simp only [← hadvance, hbelow]
  obtain ⟨own, others, w, hown, hcovers⟩ :=
    Cursor.covers_opened hp hapart hc hmode hlead
  rw [hpieces] at hown
  -- The opening mark is not empty, so the construct has a first piece.
  cases own with
  | nil =>
    have hw : w = [] := by
      rw [← flatten_lines w, ← hcovers.lexemes]
      rfl
    have hle := hcovers.spans.lead_isPrefix.length_le
    rw [hw] at hle
    exact absurd hapart.one_lt_length (Nat.not_lt.mpr (Nat.le_succ_of_le hle))
  | cons x more =>
    obtain ⟨rfl, rfl⟩ := List.cons.inj hown
    exact ⟨more, others, w, rfl, hcovers⟩

/-- A Python string over two lines: the backslash at the end of the first line escapes the line
feed and not the quotes below it. -/
theorem scan_carry_escaped_lineFeed :
    Construct.ofDelimiter "'''" ∈ Language.python.profile.constructs ∧
    Language.python.profile.pieces "'''a\\\n'''b" =
      [] ++ ⟨{}, .string, "'''a\\\n".toList⟩ ::
        [⟨{ mode := .blockString "'''", line := 2 }, .string, "'''".toList⟩,
          ⟨{ line := 2, column := 4 }, .identifier, ['b']⟩] ∧
    ∃ more others w,
      [⟨{ mode := .blockString "'''", line := 2 }, .string, "'''".toList⟩,
        ⟨{ line := 2, column := 4 }, .identifier, ['b']⟩] = more ++ others ∧
      (Construct.ofDelimiter "'''").Covers "'''".toList "'''a\\\n'''b".toList w
        (⟨{}, .string, "'''a\\\n".toList⟩ :: more) others := by
  have hmem : Construct.ofDelimiter "'''" ∈ Language.python.profile.constructs := by
    decide +kernel
  have hcut : Cursor.cutSteps Language.python.profile 3 {} "'''a\\\n'''b".toList =
      some ([] ++ ⟨{}, .string, "'''a\\\n".toList⟩ ::
        [⟨{ mode := .blockString "'''", line := 2 }, .string, "'''".toList⟩,
          ⟨{ line := 2, column := 4 }, .identifier, ['b']⟩]) := by decide +kernel
  have hpieces := Cursor.cutText_of_cutSteps (Cursor.fits_start Language.python.profile) hcut
  have hlead : "'''".toList <+: "'''a\\\n'''b".toList := by decide +kernel
  exact ⟨hmem, hpieces, (scan_carry .python _ hmem _ _ _ _ hpieces rfl hlead).2⟩

end PolyLex.Scan
