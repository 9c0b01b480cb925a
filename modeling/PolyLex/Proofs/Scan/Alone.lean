import PolyLex.Proofs.Scan.Munch
import PolyLex.Proofs.Scan.Order

/-!
# A lexeme by itself

The categories look ahead: for a close marker, for the digits behind a point, for a longer operator,
for the end of the line. None of that reaches over the end of what is taken in the end, so a lexeme
that is scanned by itself becomes the same token (`scan_alone`). The one exception is a carriage
return at its end, which is content before a line feed and a terminator without one.

* `Category.takes_alone`: what a category takes it takes of that text, too.
* `Munch.alone`: so does the winner; an error stays an error, since no category starts there.
* `Munch.unique`: and there is only one winner.
-/

namespace PolyLex.Scan

open Text

/-! ### Without what follows -/

/-- A first close that lies in an opening of the text is the first one there. -/
theorem FirstClose.of_append {escapes : Bool} {close text more : List Char} {i : Nat}
    (h : FirstClose escapes close (text ++ more) i) (hle : i + close.length ≤ text.length) :
    FirstClose escapes close text i := by
  refine ⟨(closesAt_append_of_le hle more).mp h.1, fun j hj hcloses => ?_⟩
  exact h.2 j hj ((closesAt_append_of_le (by omega) more).mpr hcloses)

/-- A construct spans all of what it spans. -/
theorem Spans.alone {escapes : Bool} {lead close text w : List Char} (hne : close ≠ [])
    (h : Spans escapes lead close text w) : Spans escapes lead close w w := by
  obtain ⟨body, rfl, ⟨i, hi, rfl⟩ | ⟨hno, rfl⟩⟩ := h
  · have hle := standsAt_length_le hne hi.1.1
    have hlen : (body.take (i + close.length)).length = i + close.length := by
      rw [List.length_take]
      exact Nat.min_eq_left hle
    rw [← List.take_append_drop (i + close.length) body] at hi
    exact ⟨_, rfl, .inl ⟨i, hi.of_append (Nat.le_of_eq hlen.symm), by
      rw [List.take_take, Nat.min_self]⟩⟩
  · exact ⟨body, rfl, .inr ⟨hno, rfl⟩⟩

/-- What a construct takes is an opening of the text. -/
theorem Spans.taken_isPrefix {escapes : Bool} {lead close text w : List Char}
    (h : Spans escapes lead close text w) : w <+: text := by
  obtain ⟨body, rfl, ⟨i, -, rfl⟩ | ⟨-, rfl⟩⟩ := h
  · exact (List.prefix_append_right_inj lead).mpr (List.take_prefix _ _)
  · exact List.prefix_rfl

/-- The longest opening of a text is the longest of itself. -/
theorem Longest.alone {L : List Char → Prop} {text w : List Char} (h : Longest L text w) :
    Longest L w w :=
  ⟨List.prefix_rfl, h.2.1, fun _ hv _ => hv.length_le⟩

/-- A delimiter that is the first to start a text is so for each opening that it starts. -/
theorem IsFirstStart.of_isPrefix {delimiters : List String} {text w : List Char} {delimiter : String}
    (h : IsFirstStart delimiters text delimiter) (hw : w <+: text)
    (hstarts : delimiter.toList <+: w) : IsFirstStart delimiters w delimiter := by
  obtain ⟨above, below, hlisted, -, hno⟩ := h
  exact ⟨above, below, hlisted, hstarts, fun d hd hstarts' => hno d hd (hstarts'.trans hw)⟩

/-! ### Line ends -/

/-- A text that does not end in a terminator is its own content. -/
theorem content_eq_self {w : List Char} (hn : '\n' ∉ w) (hr : w.getLast? ≠ some '\r') :
    content w = w := by
  refine (isContentOf_iff.mp ⟨[], by decide, (List.append_nil w).symm, ?_⟩).symm
  rintro t ht ⟨v, rfl⟩
  simp only [terminators, List.mem_cons, List.not_mem_nil, or_false] at ht
  rcases ht with rfl | rfl | rfl | rfl
  · exact Nat.le_refl 0
  · exact absurd (by simp) hn
  · exact absurd (by simp) hr
  · exact absurd (by simp) hn

/-- The content of a line holds no line feed. -/
theorem not_mem_content {line : List Char} (hline : firstLine line = (line, [])) :
    '\n' ∉ content line := by
  rcases firstLine_cases line with hlast | ⟨-, hno⟩
  · rw [hline] at hlast
    obtain ⟨t, -, happend, hmax⟩ := isContentOf_content line
    have hfeed : ['\n'] <:+ line := by
      obtain ⟨init, hinit⟩ := List.getLast?_eq_some_iff.mp hlast
      exact ⟨init, hinit.symm⟩
    -- The terminator that is cut off has the line feed in it.
    have hpos : 1 ≤ t.length := hmax ['\n'] (by decide) hfeed
    have hlen := congrArg List.length happend
    rw [List.length_append] at hlen
    have hnot : (content line).length < (firstLine line).1.length →
        '\n' ∉ (firstLine line).1.take (content line).length := not_mem_take_firstLine
    simp only [hline] at hnot
    rw [← take_length_content]
    exact hnot (by omega)
  · rw [hline] at hno
    exact fun hmem => hno ((content_isPrefix line).subset hmem)

/-- An opening of a line is one line. -/
theorem firstLine_of_isPrefix {w text : List Char} (h : w <+: (firstLine text).1) :
    firstLine w = (w, []) := by
  rw [List.prefix_iff_eq_take.mp h]
  exact firstLine_take_firstLine h.length_le

/-! ### The categories -/

namespace Category

variable {p : Profile} {rest w : List Char} {category : Category}

/-- A category that stops at the end of the line takes nothing of its terminator. -/
theorem isPrefix_content_of_takes (h : category.Takes p rest w)
    (hcategory : category = lineComment ∨ category = quoted) : w <+: content rest := by
  rcases hcategory with rfl | rfl
  · exact isContentOf_iff.mp h.2 ▸ List.prefix_rfl
  · obtain ⟨quote, -, line, hline, hspans⟩ := h
    rw [← isContentOf_iff.mp hline]
    exact hspans.taken_isPrefix

/-- What a category takes of the rest of a line, it takes of that text by itself. -/
theorem takes_alone (hp : p.WellMarked) (hin : p.WithinLines) (h : category.Takes p rest w)
    (hcontent : category = lineComment ∨ category = quoted → content w = w) :
    category.Takes p w w := by
  cases category with
  | blockComment =>
    obtain ⟨marks, hmarks, hspans⟩ := h
    exact ⟨marks, hmarks, hspans.alone (toList_ne_nil (hp.blockComment marks hmarks).2)⟩
  | lineComment =>
    obtain ⟨v, hv, hprefix, -⟩ := exists_opens_of_takes hin h
    obtain ⟨marker, hmarker, rfl⟩ := List.mem_map.mp hv
    exact ⟨⟨marker, hmarker, hprefix⟩, isContentOf_iff.mpr (hcontent (.inl rfl)).symm⟩
  | blockString =>
    obtain ⟨delimiter, hfirst, hspans⟩ := h
    exact ⟨delimiter, hfirst.of_isPrefix hspans.taken_isPrefix hspans.lead_isPrefix,
      hspans.alone (toList_ne_nil (hp.blockStrings delimiter hfirst.mem).1)⟩
  | quoted =>
    obtain ⟨quote, hquote, line, -, hspans⟩ := h
    exact ⟨quote, hquote, w, isContentOf_iff.mpr (hcontent (.inr rfl)).symm,
      hspans.alone (List.cons_ne_nil quote [])⟩
  -- The other categories take the longest opening in a set of texts, which is in the set itself.
  | number | word | operator | punctuation | delimiter | whitespace => exact Longest.alone h

end Category

/-! ### The winner -/

namespace Munch

variable {p : Profile} {rest w w' : List Char} {kind kind' : Kind}

/-- What the rule takes is an opening of the rest. -/
theorem isPrefix (hp : p.WellMarked) (h : Munch p rest kind w) : w <+: rest := by
  cases h with
  | lexeme _ _ htakes => exact Category.isPrefix_of_takes hp htakes
  | error hrest =>
    rw [hrest]
    exact List.prefix_append [_] _

theorem ne_nil (h : Munch p rest kind w) : w ≠ [] := by
  cases h with
  | lexeme _ hne => exact hne
  | error => exact List.cons_ne_nil _ _

/-- The rules leave no choice. -/
theorem unique (l : Language) (h : Munch l.profile rest kind w)
    (h' : Munch l.profile rest kind' w') : kind = kind' ∧ w = w' := by
  have hp := l.wellMarked_profile
  have hprefix := h.isPrefix hp
  have hprefix' := h'.isPrefix hp
  cases h with
  | lexeme _ hne htakes _ hmax =>
    cases h' with
    | lexeme _ _ htakes' _ hmax' =>
      -- Neither is longer than the other, and both are openings of one text.
      have hlen : w.length = w'.length := Nat.le_antisymm (hmax' _ _ htakes) (hmax _ _ htakes')
      obtain rfl : w = w' := by
        rw [List.prefix_iff_eq_take.mp hprefix, List.prefix_iff_eq_take.mp hprefix', hlen]
      rw [Category.eq_of_takes l hne htakes htakes']
      exact ⟨rfl, rfl⟩
    | error _ huntaken => exact absurd (huntaken _ _ htakes) hne
  | error hrest huntaken =>
    cases h' with
    | lexeme _ hne htakes => exact absurd (huntaken _ _ htakes) hne
    | error hrest' =>
      obtain ⟨rfl, -⟩ := List.cons.inj (hrest.symm.trans hrest')
      exact ⟨rfl, rfl⟩

/-- What wins on a line wins by itself, unless it ends in a carriage return. -/
theorem alone (l : Language) (hline : firstLine rest = (rest, []))
    (h : Munch l.profile rest kind w)
    (hr : kind = .whitespace ∨ w.getLast? ≠ some '\r') : Munch l.profile w kind w := by
  have hp := l.wellMarked_profile
  have hin := l.withinLines_profile
  cases h with
  | @lexeme above below category _ hsplit hne htakes habove _ =>
    have hcontent : category = .lineComment ∨ category = .quoted → content w = w := by
      intro hcategory
      have hnot : '\n' ∉ w := fun hmem => not_mem_content hline
        ((Category.isPrefix_content_of_takes htakes hcategory).subset hmem)
      apply content_eq_self hnot
      rcases hr with hkind | hr
      · rcases hcategory with rfl | rfl
        · cases hkind
        · rw [Category.kindOf] at hkind
          split at hkind <;> cases hkind
      · exact hr
    refine .lexeme hsplit hne (Category.takes_alone hp hin htakes hcontent) ?_ ?_
    · -- A category listed before that takes the text now is this one.
      intro other hother htakes'
      have heq := Category.eq_of_takes l hne htakes'
        (Category.takes_alone hp hin htakes hcontent)
      exact habove other hother (heq ▸ htakes)
    · intro other v hv
      exact (Category.isPrefix_of_takes hp hv).length_le
  | @error c cs hrest huntaken =>
    refine .error rfl fun category v hv => ?_
    -- What starts on the character by itself would start on the line.
    obtain ⟨u, hu, huv, -⟩ := Category.exists_opens_of_takes hin hv
    have hstarts : u <+: rest := by
      rw [hrest]
      exact (huv.trans (Category.isPrefix_of_takes hp hv)).trans (List.prefix_append [c] cs)
    exact absurd hu (Category.not_opens_of_untaken hp hin (huntaken category) hstarts)

/-- A lexeme that has the form of a word is one. -/
theorem kind_of_isWord (l : Language) (h : Munch l.profile rest kind w)
    (hw : l.profile.IsWord w) : kind = Category.word.kindOf l.profile w := by
  have hprefix := h.isPrefix l.wellMarked_profile
  obtain ⟨c, cs, rfl, hstart, -⟩ := hw
  cases h with
  | @lexeme above below category _ _ _ htakes =>
    obtain ⟨v, hv, hvw, -⟩ := Category.exists_opens_of_takes l.withinLines_profile htakes
    obtain ⟨d, ds, rfl⟩ := List.exists_cons_of_ne_nil
      (Category.opens_ne_nil l.wellMarked_profile l.withinLines_profile hv)
    obtain ⟨rfl, -⟩ := List.cons_prefix_cons.mp hvw
    have hmem := Category.start_mem_starts l.setApart_profile hv
    rw [Category.start_of_isWordStart l.setApart_profile hstart] at hmem
    rw [Category.eq_word_of_mem_starts hmem]
  | @error _ cs hrest huntaken =>
    rw [hrest] at huntaken
    exact absurd (huntaken .word _ (Category.longest_word hstart cs)) (List.cons_ne_nil _ _)

end Munch

/-! ### The tokens of a source -/

/-- Each piece that starts in normal mode is the winner on the rest of its line. -/
theorem munch_piece {p : Profile} (hp : p.WellMarked) {source : String} {before after : List Piece}
    {t : Piece} (hsplit : p.pieces source = before ++ t :: after) (hmode : t.start.mode = .normal) :
    Munch p (firstLine (source.toList.drop (Piece.joined before).length)).1 t.kind t.lexeme := by
  obtain ⟨hleft, -, hadvance, -⟩ := Cursor.piece_eq_advance (Cursor.fits_start p) hsplit
  rw [hadvance]
  simp only [Cursor.advance, Cursor.claimOn, hmode]
  exact munch_claimAt hp (firstLine_ne_nil hleft)

/-- A line on which all of it wins is one piece. -/
theorem pieces_alone (l : Language) {w : List Char} {kind : Kind}
    (hline : firstLine w = (w, [])) (h : Munch l.profile w kind w) :
    l.profile.pieces (String.ofList w) = [⟨{}, kind, w⟩] := by
  have hclaim := munch_claimAt l.wellMarked_profile h.ne_nil
  obtain ⟨hkind, hlexeme⟩ := hclaim.unique l h
  show (Cursor.cutText l.profile {} (String.ofList w).toList).1 = _
  rw [String.toList_ofList, Cursor.cutText_cons (Cursor.fits_start l.profile) h.ne_nil]
  simp only [Cursor.advance, Cursor.claimOn, hline, hkind, hlexeme, List.drop_length,
    Cursor.cutText_nil]

/-- The kind of a token does not depend on what stands around it: scanned alone, its lexeme is one
token of the same kind at the first place. In particular a lexeme in the form of a word is a keyword
wherever it is reserved. -/
theorem scan_alone (l : Language) (source : String) (before after : List Piece) (t : Piece)
    (hsplit : l.profile.pieces source = before ++ t :: after) (hmode : t.start.mode = .normal) :
    (l.profile.scan source).tokens = (before ++ t :: after).map Piece.token ∧
    (t.kind = .whitespace ∨ t.lexeme.getLast? ≠ some '\r' →
      (l.profile.scan (String.ofList t.lexeme)).tokens = [Token.located t.kind t.lexeme 1 1]) ∧
    (l.profile.IsWord t.lexeme →
      t.kind = if String.ofList t.lexeme ∈ l.profile.keywords then .keyword else .identifier) := by
  have hmunch := munch_piece l.wellMarked_profile hsplit hmode
  refine ⟨by rw [Profile.tokens_scan, hsplit], fun hr => ?_, hmunch.kind_of_isWord l⟩
  have halone := hmunch.alone l (firstLine_of_isPrefix List.prefix_rfl) hr
  have hline := firstLine_of_isPrefix (hmunch.isPrefix l.wellMarked_profile)
  rw [Profile.tokens_scan, pieces_alone l hline halone]
  rfl

/-- A Python literal that is not closed is cut at the end of its line; what is left of it is the
same literal. -/
theorem scan_alone_unclosed :
    Language.python.profile.pieces "a='b\r\n" =
      [⟨{}, .identifier, ['a']⟩, ⟨{ column := 2 }, .operator, ['=']⟩] ++
        ⟨{ column := 3 }, .string, "'b".toList⟩ ::
        [⟨{ column := 5 }, .whitespace, ['\r', '\n']⟩] ∧
    "'b".toList.getLast? ≠ some '\r' ∧
    (Language.python.profile.scan "'b").tokens = [Token.located .string "'b".toList 1 1] := by
  have hcut : Cursor.cutSteps Language.python.profile 4 {} "a='b\r\n".toList =
      some ([⟨{}, .identifier, ['a']⟩, ⟨{ column := 2 }, .operator, ['=']⟩] ++
        ⟨{ column := 3 }, .string, "'b".toList⟩ ::
        [⟨{ column := 5 }, .whitespace, ['\r', '\n']⟩]) := by decide +kernel
  have hpieces := Cursor.cutText_of_cutSteps (Cursor.fits_start Language.python.profile) hcut
  have hlast : "'b".toList.getLast? ≠ some '\r' := by decide
  have halone := (scan_alone .python _ _ _ _ hpieces rfl).2.1 (.inr hlast)
  rw [String.ofList_toList] at halone
  exact ⟨hpieces, hlast, halone⟩

end PolyLex.Scan
