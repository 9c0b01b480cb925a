import Mathlib.Data.List.DropRight
import PolyLex.Proofs.Scan.Coverage
import PolyLex.Proofs.Scan.Munch

/-!
# What the scanner carries from text to text

Texts can be fed to the scanner however they are cut: empty, without a line feed at the end, with
line feeds inside. All that goes over from one to the next is the cursor, and `Cursor.Carries` says
what the cursor is, from the texts alone:

    line   = 1 + the texts that end in a line feed
    column = 1 + the characters of the texts behind the last of those

The mode is one that the profile has a construct for. While it is not the normal one, the last piece
belongs to the construct and reaches to the end of the last text.

* `Mode.follows_cutLine` — the mode that one text leaves behind, by the claims on it;
* `Cursor.place_cutLine` — the place that one text leads to, by its length and its last character;
* `Cursor.carries_cutLines` — all texts, by induction over those that were fed.
-/

namespace PolyLex.Scan

open Text

/-- The kind of the tokens that the mode is in the middle of. -/
def Mode.kind? : Mode → Option Kind
  | .normal => none
  | .blockComment => some .comment
  | .blockString _ => some .string

/-! ### Claims that leave a construct open -/

/-- The claim is of the kind of the construct that it leaves open, if it leaves one open. -/
def Claim.OfItsMode (c : Claim) : Prop := c.next = .normal ∨ c.next.kind? = some c.kind

/-- A construct leaves the scanner in its own mode or in normal mode. -/
theorem ofItsMode_openConstruct {kind : Kind} {mode : Mode} (hmode : mode.kind? = some kind)
    (escapes : Bool) (lead close rest body : List Char) :
    (Category.openConstruct kind escapes lead close rest body mode).OfItsMode := by
  rw [Category.openConstruct]
  split
  · exact .inl rfl
  · exact .inr hmode

theorem ofItsMode_claim? {p : Profile} {rest : List Char} {category : Category} {c : Claim}
    (h : category.claim? p rest = some c) : c.OfItsMode := by
  cases category with
  | blockComment =>
    obtain ⟨marks, -, body, -, rfl⟩ := Category.blockCommentClaim?_eq_some_iff.mp h
    have hmode : Mode.kind? .blockComment = some .comment := rfl
    exact ofItsMode_openConstruct hmode ..
  | blockString =>
    obtain ⟨delimiter, -, body, -, rfl⟩ := Category.blockStringClaim?_eq_some_iff.mp h
    have hmode : Mode.kind? (.blockString delimiter) = some .string := rfl
    exact ofItsMode_openConstruct hmode ..
  -- The other categories open nothing.
  | lineComment =>
    obtain ⟨-, rfl⟩ := Category.lineCommentClaim?_eq_some_iff.mp h
    exact .inl rfl
  | quoted =>
    simp only [Category.claim?, Category.quotedClaim?, Option.bind_eq_bind,
      Option.bind_eq_some_iff] at h
    obtain ⟨quote, -, kind, -, h⟩ := h
    split at h <;> cases h <;> exact .inl rfl
  | number =>
    obtain ⟨-, rfl⟩ := Category.numberClaim?_eq_some_iff.mp h
    exact .inl rfl
  | word =>
    obtain ⟨-, -, -, -, rfl⟩ := Category.wordClaim?_eq_some_iff.mp h
    exact .inl rfl
  | operator =>
    obtain ⟨-, -, rfl⟩ := Category.operatorClaim?_eq_some_iff.mp h
    exact .inl rfl
  | punctuation =>
    obtain ⟨-, -, -, -, rfl⟩ := Category.singleClaim?_eq_some_iff.mp h
    exact .inl rfl
  | delimiter =>
    obtain ⟨-, -, -, -, rfl⟩ := Category.singleClaim?_eq_some_iff.mp h
    exact .inl rfl
  | whitespace =>
    cases h
    exact .inl rfl

/-- Whatever is cut at the head of a text has the kind of the mode it leaves. -/
theorem ofItsMode_claimAt (p : Profile) (rest : List Char) : (claimAt p rest).OfItsMode := by
  rw [claimAt]
  cases h : longestClaim? Category.all p rest with
  | none => exact .inl rfl
  | some c =>
    obtain ⟨-, category, -, -, hc, -⟩ := exists_of_longestClaim? h
    exact ofItsMode_claim? hc

/-- Whatever is cut in any mode has the kind of the mode it leaves. -/
theorem ofItsMode_claimOn (p : Profile) (cur : Cursor) (line : List Char) :
    (cur.claimOn p line).OfItsMode := by
  unfold Cursor.claimOn
  cases cur.mode with
  | normal => exact ofItsMode_claimAt p line
  | blockComment =>
    have hmode : Mode.kind? .blockComment = some .comment := rfl
    exact ofItsMode_openConstruct hmode ..
  | blockString delimiter =>
    have hmode : Mode.kind? (.blockString delimiter) = some .string := rfl
    exact ofItsMode_openConstruct hmode ..

/-! ### The mode behind a text -/

/-- The mode can follow the pieces: the profile has its construct, and if one is open, the last
piece belongs to it. -/
structure Mode.Follows (p : Profile) (pieces : List Piece) (mode : Mode) : Prop where
  fits : mode.FitsIn p
  last : ∀ kind, mode.kind? = some kind → ∃ own x, pieces = own ++ [x] ∧ x.kind = kind

namespace Mode

theorem follows_normal (p : Profile) (pieces : List Piece) :
    (Mode.normal).Follows p pieces where
  fits := trivial
  last := nofun

/-- What the mode follows from is the end of the pieces, whatever stands before it. -/
theorem Follows.append {p : Profile} {pieces : List Piece} {mode : Mode}
    (h : mode.Follows p pieces) (before : List Piece) : mode.Follows p (before ++ pieces) where
  fits := h.fits
  last kind hkind := by
    obtain ⟨own, x, rfl, hx⟩ := h.last kind hkind
    exact ⟨before ++ own, x, (List.append_assoc ..).symm, hx⟩

/-- The piece of a claim and those of the rest of its line. If the claim leaves a construct open, it
takes all of the line, so its piece is the last. -/
theorem follows_claim {p : Profile} {cur : Cursor} {line : List Char} {claim : Claim}
    {more : List Piece × Cursor} (hsound : claim.Sound p line) (hkind : claim.OfItsMode)
    (hmore : (cur.skip (line.take claim.length) claim.next).cutRest p
      (line.drop claim.length) = more)
    (hrest : claim.next = .normal → more.2.mode.Follows p more.1) :
    more.2.mode.Follows p (⟨cur, claim.kind, line.take claim.length⟩ :: more.1) := by
  by_cases hopen : claim.next = .normal
  · exact (hrest hopen).append [_]
  · rw [hsound.all_of_open hopen, List.drop_length, Cursor.cutRest_nil] at hmore
    subst hmore
    refine ⟨hsound.fits, fun kind hmode => ⟨[], _, rfl, ?_⟩⟩
    exact Option.some.inj ((hkind.resolve_left hopen).symm.trans hmode)

/-- Behind a line scanned in normal mode, the mode follows from the pieces of the line. -/
theorem follows_cutRest (p : Profile) (cur : Cursor) (rest : List Char)
    (hcur : cur.mode = .normal) :
    (cur.cutRest p rest).2.mode.Follows p (cur.cutRest p rest).1 := by
  fun_induction Cursor.cutRest p cur rest with
  | case1 cur =>
    rw [hcur]
    exact follows_normal p []
  | case2 cur c cs claim lexeme pieces last heq ih =>
    rw [heq] at ih
    exact follows_claim (sound_claimAt p (List.cons_ne_nil c cs)) (ofItsMode_claimAt p (c :: cs))
      heq ih

/-- The mode behind a text follows its pieces, whatever was in the middle when it was fed. -/
theorem follows_cutLine {p : Profile} {cur : Cursor} (hfit : cur.mode.FitsIn p)
    (line : List Char) : (cur.cutLine p line).2.mode.Follows p (cur.cutLine p line).1 := by
  by_cases hline : line = []
  · -- An open construct has a piece in an empty text too.
    subst hline
    rw [Cursor.cutLine, Cursor.resume]
    cases hmode : cur.mode with
    | normal =>
      rw [Cursor.mode_endLine, Cursor.cutRest_nil, hmode]
      exact follows_normal p _
    | blockComment =>
      rw [hmode] at hfit
      obtain ⟨marks, hmarks⟩ := Option.isSome_iff_exists.mp hfit
      simp only [hmarks, Cursor.continueConstruct, closeEnd?, Cursor.cutRest_nil,
        Cursor.mode_endLine, List.append_nil, Cursor.skip, hmode]
      exact ⟨hfit, fun kind hkind => ⟨[], _, rfl, Option.some.inj hkind⟩⟩
    | blockString delimiter =>
      rw [hmode] at hfit
      simp only [Cursor.continueConstruct, closeEnd?, Cursor.cutRest_nil, Cursor.mode_endLine,
        List.append_nil, Cursor.skip, hmode]
      exact ⟨hfit, fun kind hkind => ⟨[], _, rfl, Option.some.inj hkind⟩⟩
  · rw [Cursor.cutLine_eq_claimOn hfit hline]
    simp only [Cursor.mode_endLine]
    exact follows_claim (Cursor.sound_claimOn hfit hline) (ofItsMode_claimOn p cur line) rfl
      fun hnext => follows_cutRest p _ _ hnext

end Mode

namespace Cursor

/-! ### The place behind a text -/

/-- What is cut in a line moves the cursor along the line. -/
theorem place_cutRest (p : Profile) (cur : Cursor) (rest : List Char) :
    (cur.cutRest p rest).2.line = cur.line ∧
      (cur.cutRest p rest).2.column = cur.column + rest.length := by
  fun_induction cutRest p cur rest with
  | case1 => exact ⟨rfl, rfl⟩
  | case2 cur c cs claim lexeme pieces last heq ih =>
    rw [heq] at ih
    obtain ⟨hline, hcolumn⟩ := ih
    refine ⟨hline, ?_⟩
    have hsplit := congrArg List.length (List.take_append_drop claim.length (c :: cs))
    rw [List.length_append] at hsplit
    show last.column = _
    rw [hcolumn, ← hsplit, ← Nat.add_assoc]
    rfl

/-- To take up an open construct stays on the line and moves the column by what is taken. -/
theorem place_resume (p : Profile) (cur : Cursor) (line : List Char) :
    (cur.resume p line).2.1.line = cur.line ∧
      (cur.resume p line).2.1.column + (cur.resume p line).2.2.length =
        cur.column + line.length := by
  -- The construct takes a first part of the line and leaves the other.
  have hconstruct : ∀ (kind : Kind) (escapes : Bool) (close : List Char),
      (cur.continueConstruct kind escapes close line).2.1.line = cur.line ∧
        (cur.continueConstruct kind escapes close line).2.1.column +
          (cur.continueConstruct kind escapes close line).2.2.length =
            cur.column + line.length := by
    intro kind escapes close
    rw [continueConstruct_eq_openConstruct]
    refine ⟨rfl, ?_⟩
    show cur.column + (line.take _).length + (line.drop _).length = _
    rw [Nat.add_assoc, ← List.length_append, List.take_append_drop]
  unfold resume
  split
  · exact ⟨rfl, rfl⟩
  · split
    · exact hconstruct ..
    · exact ⟨rfl, rfl⟩
  · exact hconstruct ..

/-- A text moves the cursor by its length, or to the next line if it ends in a line feed. -/
theorem place_cutLine (p : Profile) (cur : Cursor) (line : List Char) :
    ((cur.cutLine p line).2.line, (cur.cutLine p line).2.column) =
      if line.getLast? = some '\n' then (cur.line + 1, 1)
      else (cur.line, cur.column + line.length) := by
  obtain ⟨hline, hcolumn⟩ := place_resume p cur line
  obtain ⟨hline', hcolumn'⟩ :=
    place_cutRest p (cur.resume p line).2.1 (cur.resume p line).2.2
  rw [hline] at hline'
  rw [hcolumn] at hcolumn'
  rw [cutLine]
  simp only [endLine]
  split
  · rw [hline']
  · rw [hline', hcolumn']

/-! ### Texts fed one after the other -/

/-- Lines are cut one after the other, each from the cursor that the line before it leaves. -/
theorem cutLines_append (p : Profile) (cur : Cursor) (before after : List (List Char)) :
    cur.cutLines p (before ++ after) =
      ((cur.cutLines p before).1 ++ ((cur.cutLines p before).2.cutLines p after).1,
        ((cur.cutLines p before).2.cutLines p after).2) := by
  induction before generalizing cur with
  | nil => rfl
  | cons line before ih => simp only [List.cons_append, cutLines, ih, List.append_assoc]

theorem cutLines_singleton (p : Profile) (cur : Cursor) (line : List Char) :
    cur.cutLines p [line] = cur.cutLine p line := by
  simp only [cutLines, List.append_nil]

/-- The cursor is what the texts that were fed lead to. -/
structure Carries (p : Profile) (fed : List (List Char)) (cur : Cursor) : Prop where
  fits : cur.mode.FitsIn p
  /-- While a construct is open, the last piece belongs to it and ends where the last text ends. -/
  last : ∀ kind, cur.mode.kind? = some kind → ∃ earlier text own x, fed = earlier ++ [text] ∧
    (({} : Cursor).cutLines p fed).1 = (({} : Cursor).cutLines p earlier).1 ++ (own ++ [x]) ∧
    Piece.joined (own ++ [x]) = text ∧ x.kind = kind
  line : cur.line = 1 + fed.countP fun text => text.getLast? = some '\n'
  column : cur.column = 1 + (fed.rtakeWhile fun text => text.getLast? ≠ some '\n').flatten.length

/-- Behind any lines, the cursor carries what the scanner has to know of them. -/
theorem carries_cutLines (p : Profile) (fed : List (List Char)) :
    (({} : Cursor).cutLines p fed).2.Carries p fed := by
  induction fed using List.reverseRecOn with
  | nil => exact ⟨trivial, nofun, rfl, rfl⟩
  | append_singleton fed text ih =>
    have hsplit : ({} : Cursor).cutLines p (fed ++ [text]) =
        ((({} : Cursor).cutLines p fed).1 ++ ((({} : Cursor).cutLines p fed).2.cutLine p text).1,
          ((({} : Cursor).cutLines p fed).2.cutLine p text).2) := by
      rw [cutLines_append, cutLines_singleton]
    have hfollows := Mode.follows_cutLine ih.fits text
    have hplace := place_cutLine p (({} : Cursor).cutLines p fed).2 text
    rw [hsplit]
    refine ⟨hfollows.fits, ?_, ?_, ?_⟩
    -- The open construct is the last piece of the text that was fed last.
    · intro kind hkind
      obtain ⟨own, x, hpieces, hx⟩ := hfollows.last kind hkind
      refine ⟨fed, text, own, x, rfl, by rw [hsplit, hpieces], ?_, hx⟩
      rw [← hpieces, joined_cutLine]
    -- A line feed at the end of the text starts a line and resets the column.
    · rw [List.countP_append, List.countP_singleton]
      by_cases hend : text.getLast? = some '\n'
      · rw [if_pos hend, Prod.mk.injEq] at hplace
        simp [hplace.1, ih.line, hend, Nat.add_assoc]
      · rw [if_neg hend, Prod.mk.injEq] at hplace
        simp [hplace.1, ih.line, hend]
    · by_cases hend : text.getLast? = some '\n'
      · rw [if_pos hend, Prod.mk.injEq] at hplace
        rw [List.rtakeWhile_concat_neg _ _ _ (by simpa using hend)]
        exact hplace.2
      · rw [if_neg hend, Prod.mk.injEq] at hplace
        rw [List.rtakeWhile_concat_pos _ _ _ (by simpa using hend), List.flatten_append,
          List.length_append, List.flatten_singleton, ← Nat.add_assoc, ← ih.column]
        exact hplace.2

end Cursor

/-! ### The state behind whatever is fed -/

/-- A mode fits a profile that has the comment or the delimiter that the mode is about. -/
theorem Mode.fitsIn_iff {p : Profile} {mode : Mode} : mode.FitsIn p ↔
    mode = .normal ∨ mode = .blockComment ∧ p.blockComment.isSome = true ∨
      ∃ delimiter ∈ p.blockStrings, mode = .blockString delimiter := by
  cases mode <;> simp [Mode.FitsIn]

/-- The scanner meets no fault on whatever strings it is fed, and they decide its state. The mode
has its construct in the profile, so a carried comment always has a close marker to look for; the
last token of an open construct reaches to the end of the last string; the strings that end in a
line feed are the lines before the cursor, and what was fed behind them stands before it in its
line. -/
theorem feedLines_carries {p : Profile} (hp : p.QuotesInLine) (fed : List String) :
    ∃ tokens cur, Bytes.feedLines p {} (fed.map String.toList) = .ok (tokens, cur) ∧
      (cur.mode = .normal ∨ cur.mode = .blockComment ∧ p.blockComment.isSome = true ∨
        ∃ delimiter ∈ p.blockStrings, cur.mode = .blockString delimiter) ∧
      (∀ kind, cur.mode.kind? = some kind → ∃ earlier text own t, fed = earlier ++ [text] ∧
        tokens = (Cursor.feedLines p {} (earlier.map String.toList)).1 ++ (own ++ [t]) ∧
        Token.joined (own ++ [t]) = text ∧ t.kind = kind) ∧
      cur.line = 1 + fed.countP (fun text => text.toList.getLast? = some '\n') ∧
      cur.column = 1 + (String.join
        (fed.rtakeWhile fun text => text.toList.getLast? ≠ some '\n')).length := by
  obtain ⟨hfits, hlast, hline, hcolumn⟩ := Cursor.carries_cutLines p (fed.map String.toList)
  refine ⟨_, _, Bytes.feedLines_eq hp {} _, ?_, ?_, ?_, ?_⟩
  all_goals rw [Cursor.feedLines_eq]
  · exact Mode.fitsIn_iff.mp hfits
  · intro kind hkind
    obtain ⟨_, _, own, x, hfed, hpieces, hjoined, hx⟩ := hlast kind hkind
    -- The texts were fed as strings, and are taken back out of their characters.
    obtain ⟨earlier, rest, rfl, rfl, hrest⟩ := List.map_eq_append_iff.mp hfed
    obtain ⟨text, rfl, rfl⟩ := List.map_eq_singleton_iff.mp hrest
    refine ⟨earlier, text, own.map Piece.token, x.token, rfl, ?_, ?_, hx⟩
    · rw [hpieces, Cursor.feedLines_eq, List.map_append, List.map_append, List.map_singleton]
    · have htokens := Piece.joined_tokens (own ++ [x])
      rw [hjoined, String.ofList_toList, List.map_append, List.map_singleton] at htokens
      exact htokens
  · rw [hline, List.countP_map]
    rfl
  · rw [hcolumn, List.rtakeWhile, ← List.map_reverse, List.takeWhile_map, ← List.map_reverse,
      ← ofList_flatten, String.length_ofList]
    rfl

/-- A Python string is open when an empty string and one with a line feed inside are fed. -/
theorem feedLines_carries_opened :
    Language.python.profile.QuotesInLine ∧
    ∃ tokens cur, Bytes.feedLines Language.python.profile {}
        (["x\n", "'''é", "", "b\nc"].map String.toList) = .ok (tokens, cur) ∧
      cur = { mode := .blockString "'''", line := 2, column := 8 } ∧
      ∃ before own t, tokens = before ++ (own ++ [t]) ∧ t.kind = .string ∧
        Token.joined (own ++ [t]) = "b\nc" := by
  have hquotes := Language.python.wellMarked_profile.quotesInLine
  obtain ⟨tokens, cur, hfeed, -, hlast, hline, hcolumn⟩ :=
    feedLines_carries hquotes ["x\n", "'''é", "", "b\nc"]
  have hmode : cur.mode = .blockString "'''" := by
    rw [Bytes.feedLines_eq hquotes, Except.ok.injEq] at hfeed
    have hlast : _ = cur := congrArg Prod.snd hfeed
    rw [← hlast]
    decide +kernel
  have hcur : cur = { mode := .blockString "'''", line := 2, column := 8 } := by
    obtain ⟨mode, line, column⟩ := cur
    rw [Cursor.mk.injEq]
    exact ⟨hmode, hline.trans (by decide), hcolumn.trans (by decide)⟩
  obtain ⟨earlier, text, own, t, hfed, htokens, hjoined, hkind⟩ :=
    hlast .string (by rw [hmode]; rfl)
  -- The piece that stays open is in the last text that was fed.
  have htext := congrArg List.getLast? hfed
  rw [List.getLast?_concat, List.getLast?_cons_cons, List.getLast?_cons_cons,
    List.getLast?_cons_cons, List.getLast?_singleton, Option.some.injEq] at htext
  exact ⟨hquotes, tokens, cur, hfeed, hcur, _, own, t, htokens, hkind, hjoined.trans htext.symm⟩

end PolyLex.Scan
