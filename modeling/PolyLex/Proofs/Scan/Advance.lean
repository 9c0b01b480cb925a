import PolyLex.Proofs.Scan.Claims
import PolyLex.Proofs.Text.Lines

/-!
# Scanning piece by piece

The scanner goes through a source line by line and through a line claim by claim. Its laws are said
of single pieces, so this module says what cuts off one piece, whatever the mode: the claim of
`Cursor.claimOn` on the rest of the line, which is the winning claim in normal mode and the carried
construct otherwise.

* `cutText_cons`: cutting a text is cutting off one piece and then cutting what is left.
* `cutText_split`: so the pieces from any place on are those of the text that is left there.
* `piece_eq_advance`: each piece is what is cut off at its cursor from the text that is left.

The mode of the cursor has to be one that the profile has a construct for (`Mode.FitsIn`), which is
true of a fresh cursor and stays true.
-/

namespace PolyLex.Scan

open Text

namespace Cursor

/-- What takes the first characters of the rest of a line. A construct that was opened earlier is
gone on with; it has no opening marker here. -/
def claimOn (p : Profile) (cur : Cursor) (line : List Char) : Claim :=
  match cur.mode with
  | .normal => claimAt p line
  | .blockComment =>
    Category.openConstruct .comment false [] ((p.blockComment.map Prod.snd).getD "").toList line line
      .blockComment
  | .blockString delimiter =>
    Category.openConstruct .string true [] delimiter.toList line line (.blockString delimiter)

/-- The piece that is cut off a text first, and the cursor behind it. -/
def advance (p : Profile) (cur : Cursor) (text : List Char) : Piece × Cursor :=
  let claim := cur.claimOn p (firstLine text).1
  let lexeme := (firstLine text).1.take claim.length
  (⟨cur, claim.kind, lexeme⟩, (cur.skip lexeme claim.next).endLine lexeme)

/-- The pieces of a text, which may start in the middle of a line, and the cursor behind it. -/
def cutText (p : Profile) (cur : Cursor) (text : List Char) : List Piece × Cursor :=
  cur.cutLines p (lines text)

/-! ### One piece of a line -/

/-- A line that is not ended leaves the cursor on it. -/
theorem endLine_of_not_mem (cur : Cursor) {line : List Char} (h : '\n' ∉ line) :
    cur.endLine line = cur := by
  rw [endLine, if_neg]
  intro hlast
  exact h (List.mem_of_getLast? hlast)

/-- The end of a line does not change the mode. -/
theorem mode_endLine (cur : Cursor) (line : List Char) : (cur.endLine line).mode = cur.mode := by
  rw [endLine]
  split <;> rfl

/-- The rest of a line is cut by the claim at its beginning. -/
theorem cutRest_of_ne_nil (p : Profile) (cur : Cursor) {rest : List Char} (h : rest ≠ []) :
    cutRest p cur rest =
      let claim := claimAt p rest
      let next := cutRest p (cur.skip (rest.take claim.length) claim.next) (rest.drop claim.length)
      (⟨cur, claim.kind, rest.take claim.length⟩ :: next.1, next.2) := by
  cases rest with
  | nil => exact absurd rfl h
  | cons c cs => rw [cutRest]

theorem cutRest_nil (p : Profile) (cur : Cursor) : cutRest p cur [] = ([], cur) := by
  rw [cutRest]

/-- To go on with a construct is to open it again, with no mark to skip. -/
theorem continueConstruct_eq_openConstruct (cur : Cursor) (kind : Kind) (escapes : Bool)
    (close line : List Char) : cur.continueConstruct kind escapes close line =
      let claim := Category.openConstruct kind escapes [] close line line cur.mode
      ([⟨cur, claim.kind, line.take claim.length⟩],
        cur.skip (line.take claim.length) claim.next, line.drop claim.length) := by
  rw [continueConstruct, Category.openConstruct]
  cases closeEnd? escapes close line with
  | none => simp only [List.take_length, List.drop_length]
  | some n => simp only [List.length_nil, Nat.zero_add]

/-- The claim on a line takes a part of it that is not empty, and what it leaves open can be closed.
-/
theorem sound_claimOn {p : Profile} {cur : Cursor} {line : List Char} (hfit : cur.mode.FitsIn p)
    (hline : line ≠ []) : (cur.claimOn p line).Sound p line := by
  unfold claimOn
  cases hmode : cur.mode with
  | normal => exact sound_claimAt p hline
  | blockComment =>
    rw [hmode] at hfit
    exact sound_openConstruct hfit .comment false [] _ line
  | blockString delimiter =>
    rw [hmode] at hfit
    exact sound_openConstruct hfit .string true [] _ line

/-- A line is cut by the claim on it and by the claims on what is left. -/
theorem cutLine_eq_claimOn {p : Profile} {cur : Cursor} {line : List Char}
    (hfit : cur.mode.FitsIn p) (hline : line ≠ []) : cur.cutLine p line =
      let claim := cur.claimOn p line
      let lexeme := line.take claim.length
      let next := cutRest p (cur.skip lexeme claim.next) (line.drop claim.length)
      (⟨cur, claim.kind, lexeme⟩ :: next.1, next.2.endLine line) := by
  unfold cutLine resume claimOn
  cases hmode : cur.mode with
  | normal =>
    simp only [cutRest_of_ne_nil p cur hline, List.nil_append]
  | blockComment =>
    rw [hmode] at hfit
    obtain ⟨⟨lead, close⟩, hmarks⟩ := Option.isSome_iff_exists.mp hfit
    simp only [hmarks, continueConstruct_eq_openConstruct, hmode, Option.map_some,
      Option.getD_some, List.cons_append, List.nil_append]
  | blockString delimiter =>
    simp only [continueConstruct_eq_openConstruct, hmode, List.cons_append, List.nil_append]

/-! ### One piece of a text -/

/-- Cutting what is left behind some characters of the first line is going on in the line and then
with the lines below it. -/
theorem cutText_drop (p : Profile) {cur : Cursor} {text : List Char} {k : Nat}
    (hk : k ≤ (firstLine text).1.length)
    (hmode : cur.mode = .normal ∨ k = (firstLine text).1.length) :
    cutText p (cur.endLine ((firstLine text).1.take k)) (text.drop k) =
      let next := cutRest p cur ((firstLine text).1.drop k)
      let more := cutLines p (next.2.endLine (firstLine text).1) (lines (firstLine text).2)
      (next.1 ++ more.1, more.2) := by
  rcases Nat.lt_or_eq_of_le hk with hlt | rfl
  · -- The line goes on, and its rest ends as the line does.
    have hnormal : cur.mode = .normal := by
      rcases hmode with h | h
      · exact h
      · omega
    have hlast : ((firstLine text).1.drop k).getLast? = (firstLine text).1.getLast? := by
      rw [List.getLast?_drop, if_neg (by omega)]
    have hend : ∀ c : Cursor, c.endLine ((firstLine text).1.drop k) =
        c.endLine (firstLine text).1 := by
      intro c
      rw [endLine, endLine, hlast]
    rw [endLine_of_not_mem cur (not_mem_take_firstLine hlt), cutText, lines_drop hlt, cutLines,
      cutLine, resume, hnormal]
    simp only [List.nil_append, hend]
  · rw [List.take_length, List.drop_length, drop_length_firstLine, cutRest_nil]
    rfl

/-- Cutting a text is cutting off one piece and then cutting what is left. -/
theorem cutText_cons {p : Profile} {cur : Cursor} {text : List Char} (hfit : cur.mode.FitsIn p)
    (htext : text ≠ []) : cutText p cur text =
      let first := advance p cur text
      let next := cutText p first.2 (text.drop first.1.lexeme.length)
      (first.1 :: next.1, next.2) := by
  have hline := firstLine_ne_nil htext
  have hsound := sound_claimOn hfit hline
  have hlen : ((firstLine text).1.take (cur.claimOn p (firstLine text).1).length).length =
      (cur.claimOn p (firstLine text).1).length := by
    rw [List.length_take]
    exact Nat.min_eq_left hsound.length_le
  -- What stays open takes the whole line; otherwise the rest of the line is in normal mode.
  have hmode : (cur.skip ((firstLine text).1.take (cur.claimOn p (firstLine text).1).length)
      (cur.claimOn p (firstLine text).1).next).mode = .normal ∨
      (cur.claimOn p (firstLine text).1).length = (firstLine text).1.length := by
    by_cases h : (cur.claimOn p (firstLine text).1).next = .normal
    · exact .inl h
    · exact .inr (hsound.all_of_open h)
  rw [cutText, lines_of_ne_nil htext, cutLines, cutLine_eq_claimOn hfit hline]
  simp only [advance, hlen, cutText_drop p hsound.length_le hmode, List.cons_append]

theorem cutText_nil (p : Profile) (cur : Cursor) : cutText p cur [] = ([], cur) := by
  rw [cutText, lines, cutLines]

/-- The mode behind a piece fits the profile again. -/
theorem fits_advance {p : Profile} {cur : Cursor} {text : List Char} (hfit : cur.mode.FitsIn p)
    (htext : text ≠ []) : (advance p cur text).2.mode.FitsIn p := by
  have hsound := sound_claimOn hfit (firstLine_ne_nil htext)
  rw [advance, mode_endLine]
  exact hsound.fits

/-! ### The pieces of a text -/

/-- The pieces from any place on are those of the text that is left there. -/
theorem cutText_split {p : Profile} : ∀ {before after : List Piece} {cur : Cursor}
    {text : List Char}, cur.mode.FitsIn p → (cutText p cur text).1 = before ++ after →
      ∃ cur', cur'.mode.FitsIn p ∧
        cutText p cur' (text.drop (Piece.joined before).length) = (after, (cutText p cur text).2) := by
  intro before
  induction before with
  | nil =>
    intro after cur text hfit h
    exact ⟨cur, hfit, Prod.ext h rfl⟩
  | cons x before ih =>
    intro after cur text hfit h
    have htext : text ≠ [] := by
      rintro rfl
      rw [cutText_nil] at h
      cases h
    have hcons := cutText_cons hfit htext
    rw [hcons, List.cons_append, List.cons.injEq] at h
    obtain ⟨hx, hnext⟩ := h
    obtain ⟨cur', hfit', hcut⟩ := ih (fits_advance hfit htext) hnext
    refine ⟨cur', hfit', ?_⟩
    rw [hcons, Piece.joined, List.flatMap_cons, List.length_append, ← hx, ← List.drop_drop]
    exact hcut

/-- Each piece is what is cut off at its cursor from the text that is left there, and the pieces
behind it are those of what is left then. -/
theorem piece_eq_advance {p : Profile} {cur : Cursor} {text : List Char} {before after : List Piece}
    {x : Piece} (hfit : cur.mode.FitsIn p) (h : (cutText p cur text).1 = before ++ x :: after) :
    let left := text.drop (Piece.joined before).length
    left ≠ [] ∧ x.start.mode.FitsIn p ∧ x = (advance p x.start left).1 ∧
      cutText p (advance p x.start left).2 (left.drop x.lexeme.length) =
        (after, (cutText p cur text).2) := by
  obtain ⟨cur', hfit', hcut⟩ := cutText_split hfit h
  have htext : text.drop (Piece.joined before).length ≠ [] := by
    intro hnil
    rw [hnil, cutText_nil] at hcut
    cases hcut
  rw [cutText_cons hfit' htext] at hcut
  obtain ⟨hfirst, hlast⟩ := Prod.mk.inj hcut
  obtain ⟨hx, hafter⟩ := List.cons.inj hfirst
  -- The piece keeps the cursor that it was cut at.
  have hstart : x.start = cur' := by
    rw [← hx]
    rfl
  rw [hx] at hafter hlast
  rw [hstart]
  exact ⟨htext, hfit', hx.symm, Prod.ext hafter hlast⟩

theorem fits_start (p : Profile) : ({} : Cursor).mode.FitsIn p := trivial

/-! ### Cutting in a number of steps -/

/-- The pieces of a text if so many steps are enough for it. Unlike `cutText` this is recursion on
a number, so it can be run on a given text inside a proof. -/
def cutSteps (p : Profile) : Nat → Cursor → List Char → Option (List Piece)
  | _, _, [] => some []
  | 0, _, _ :: _ => none
  | n + 1, cur, c :: cs =>
    let first := advance p cur (c :: cs)
    (cutSteps p n first.2 ((c :: cs).drop first.1.lexeme.length)).map (first.1 :: ·)

/-- A text that is cut in so many steps is cut into these pieces. -/
theorem cutText_of_cutSteps {p : Profile} : ∀ {n : Nat} {cur : Cursor} {text : List Char}
    {xs : List Piece}, cur.mode.FitsIn p → cutSteps p n cur text = some xs →
      (cutText p cur text).1 = xs
  | n, cur, [], xs, _, h => by
    rw [cutSteps] at h
    cases h
    rw [cutText_nil]
  | 0, _, _ :: _, _, _, h => by
    rw [cutSteps] at h
    cases h
  | n + 1, cur, c :: cs, xs, hfit, h => by
    have htext := List.cons_ne_nil c cs
    rw [cutSteps] at h
    obtain ⟨ys, hys, rfl⟩ := Option.map_eq_some_iff.mp h
    rw [cutText_cons hfit htext]
    simp only [cutText_of_cutSteps (fits_advance hfit htext) hys]

end Cursor

end PolyLex.Scan
