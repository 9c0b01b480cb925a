import PolyLex.Proofs.Json.Ends
import PolyLex.Proofs.Remote.Payload
import PolyLex.Proofs.Text.Marks

/-!
# Reading a fenced payload

A document between two fences is what a reply holds, whatever prose stands before the first fence
and whatever follows the second one, further blocks included (`extract_fenced`).

The search for fences finds the first mark that is there (`splitAt?_append`), so it has to be shown
that no fence stands earlier: not before the block, where there are no backticks, and not across the
end of the document, since no value ends with a backtick. Nor does a value start with the letter of
the tag, so a document without a tag loses nothing.
-/

namespace PolyLex.Remote

open Json Text

/-! ### The first mark -/

/-- A text is split before a mark if the mark does not lie across its end or earlier. -/
theorem splitAt?_append {mark front : List Char} (hmark : mark ≠ [])
    (h : ¬ mark <:+: front ++ mark.dropLast) (back : List Char) :
    splitAt? mark (front ++ (mark ++ back)) = some (front, back) := by
  induction front with
  | nil =>
    obtain ⟨m, more, rfl⟩ := List.exists_cons_of_ne_nil hmark
    have hafter : after? (m :: more) (m :: more ++ back) = some back :=
      after?_eq_some_iff.mpr rfl
    rw [List.cons_append] at hafter
    rw [List.nil_append, List.cons_append, splitAt?, hafter]
  | cons c front ih =>
    have hlater : splitAt? mark (front ++ (mark ++ back)) = some (front, back) :=
      ih fun hinfix => h (List.infix_cons hinfix)
    rw [List.cons_append, splitAt?, hlater]
    cases hafter : after? mark (c :: (front ++ (mark ++ back))) with
    | none => rfl
    | some rest =>
      -- A mark that starts here would lie before the end of the one behind `front`.
      have hstarts : mark <+: c :: front ++ (mark ++ back) :=
        ⟨rest, (after?_eq_some_iff.mp hafter).symm⟩
      have hwithin : c :: front ++ mark.dropLast <+: c :: front ++ (mark ++ back) :=
        (List.prefix_append_right_inj _).mpr
          ((List.dropLast_prefix mark).trans (List.prefix_append mark back))
      have hlen : mark.length ≤ (c :: front ++ mark.dropLast).length := by
        rw [List.length_append, List.length_dropLast, List.length_cons]
        omega
      exact absurd (List.prefix_of_prefix_length_le hstarts hwithin hlen).isInfix h

/-- Two backticks at the end of a text without backticks are no fence. -/
theorem not_fence_of_not_mem {cs : List Char} (h : '\x60' ∉ cs) :
    ¬ fence <:+: cs ++ fence.dropLast := by
  intro hinfix
  have hcount := hinfix.sublist.count_le '\x60'
  rw [List.count_append, List.count_eq_zero.mpr h] at hcount
  revert hcount
  decide

/-- Behind marks of byte order and prose, the first block is what stands between the first two
fences. -/
theorem firstBlock?_append {marks before inside : List Char} (hmarks : ∀ c ∈ marks, c = '\uFEFF')
    (hbefore : '\x60' ∉ before) (hinside : ¬ fence <:+: inside ++ fence.dropLast)
    (after : List Char) :
    firstBlock? ((marks ++ (before ++ (fence ++ (inside ++ (fence ++ after))))).dropWhile
      (· == '\uFEFF')) = some ((after? ['j', 's', 'o', 'n'] inside).getD inside) := by
  have hne : fence ≠ [] := List.cons_ne_nil _ _
  have hall : ∀ c ∈ marks, (c == '\uFEFF') = true := by simpa using hmarks
  have hopen : Avoids (· == '\uFEFF') (fence ++ (inside ++ (fence ++ after))) :=
    avoids_cons (by decide) _
  have hprose : '\x60' ∉ before.dropWhile (· == '\uFEFF') :=
    fun hmem => hbefore ((List.dropWhile_suffix _).subset hmem)
  rw [List.dropWhile_append_of_pos hall, dropWhile_append_avoids hopen, firstBlock?,
    splitAt?_append hne (not_fence_of_not_mem hprose)]
  simp only [Option.bind_eq_bind, Option.bind_some, splitAt?_append hne hinside, Option.pure_def]

/-- With or without a tag, a block that does not start with one is left. -/
theorem getD_after?_tag {tag : String} {inside : List Char} (htag : tag = "" ∨ tag = "json")
    (hinside : after? ['j', 's', 'o', 'n'] inside = none) :
    (after? ['j', 's', 'o', 'n'] (tag.toList ++ inside)).getD (tag.toList ++ inside) = inside := by
  rcases htag with rfl | rfl
  · rw [String.toList_empty, List.nil_append, hinside]
    rfl
  · have hafter : after? ['j', 's', 'o', 'n'] ("json".toList ++ inside) = some inside :=
      after?_eq_some_iff.mpr (by simp)
    rw [hafter]
    rfl

/-- A text whose first visible character is another one does not begin with the tag. -/
theorem after?_eq_none {t c : Char} {tag lead rest : List Char} (hlead : t ∉ lead) (hc : c ≠ t) :
    after? (t :: tag) (lead ++ c :: rest) = none := by
  cases lead with
  | nil => rw [List.nil_append, after?, if_neg (Ne.symm hc)]
  | cons d lead =>
    rw [List.mem_cons, not_or] at hlead
    rw [List.cons_append, after?, if_neg hlead.1]

/-! ### The document in the block -/

section Document

variable {text : String} {v : Value} {front back : List Char}

theorem not_mem_of_isBlank {c : Char} (hc : isBlank c = false)
    (h : ∀ d ∈ front, isBlank d = true) : c ∉ front := by
  intro hmem
  rw [h c hmem] at hc
  cases hc

/-- No fence lies across the end of a document, or across the blanks behind it. -/
theorem not_fence_document (h : parse text = .ok v) (hfence : ¬ fence <:+: text.toList)
    (hfront : '\x60' ∉ front) (hback : ∀ c ∈ back, isBlank c = true) :
    ¬ fence <:+: front ++ (text.toList ++ back) ++ fence.dropLast := by
  obtain ⟨-, start, c, gap, hends, hc, hgap⟩ := exists_ends_of_parse h
  -- The document ends in a character that is no backtick, so a fence lies before it or behind.
  have hends_ne : c ∉ fence := by
    intro hmem
    rw [fence, List.mem_cons, List.mem_cons, List.mem_singleton, or_self, or_self] at hmem
    rw [hmem] at hc
    revert hc
    decide
  have hblank : ∀ d ∈ gap ++ back, isBlank d = true :=
    List.forall_mem_append.mpr ⟨fun d hd => isBlank_of_isGap (hgap d hd), hback⟩
  intro hinfix
  rw [hends] at hinfix hfence
  have hinfix : fence <:+: (front ++ start) ++ c :: ((gap ++ back) ++ fence.dropLast) := by
    simpa using hinfix
  rcases infix_append_cons hends_ne hinfix with hinfix | hinfix
  · exact hfence ((infix_of_not_mem_left hfront hinfix).trans (List.prefix_append _ _).isInfix)
  · exact not_fence_of_not_mem (not_mem_of_isBlank (by decide) hblank) hinfix

/-- A document does not start with the tag. -/
theorem after?_tag_document (h : parse text = .ok v) (hfront : ∀ c ∈ front, isBlank c = true) :
    after? ['j', 's', 'o', 'n'] (front ++ (text.toList ++ back)) = none := by
  obtain ⟨⟨gap, c, after, hstarts, hgap, hc⟩, -⟩ := exists_ends_of_parse h
  have hblank : ∀ d ∈ front ++ gap, isBlank d = true :=
    List.forall_mem_append.mpr ⟨hfront, fun d hd => isBlank_of_isGap (hgap d hd)⟩
  have hne : c ≠ 'j' := by
    rintro rfl
    revert hc
    decide
  have hsplit : front ++ (text.toList ++ back) = (front ++ gap) ++ c :: (after ++ back) := by
    rw [hstarts]
    simp
  rw [hsplit]
  exact after?_eq_none (not_mem_of_isBlank (by decide) hblank) hne

/-- A document between blanks is what is left when they are trimmed. -/
theorem parse_trimmed (h : parse text = .ok v) (hfront : ∀ c ∈ front, isBlank c = true)
    (hback : ∀ c ∈ back, isBlank c = true) :
    (∃ c ∈ front ++ (text.toList ++ back), isBlank c = false) ∧
      parse (String.ofList (trimBy isBlank (front ++ (text.toList ++ back)))) = .ok v := by
  obtain ⟨gap, c, body, gap', htext, hgap, hgap', hvisible, -, hends, hparse⟩ := exists_of_parse h
  have hfront' : ∀ d ∈ front ++ gap, isBlank d = true :=
    List.forall_mem_append.mpr ⟨hfront, fun d hd => isBlank_of_isGap (hgap d hd)⟩
  have hback' : ∀ d ∈ gap' ++ back, isBlank d = true :=
    List.forall_mem_append.mpr ⟨fun d hd => isBlank_of_isGap (hgap' d hd), hback⟩
  have hsplit : front ++ (text.toList ++ back) =
      (front ++ gap) ++ (c :: body ++ (gap' ++ back)) := by
    rw [htext]
    simp
  rw [hsplit, trimBy_append hvisible hfront' hback' hends]
  exact ⟨⟨c, by simp, hvisible⟩, hparse⟩

end Document

/-! ### The reply -/

/-- A reply that holds a document between fences is read as that document: behind marks of byte
order and prose without backticks, with or without the tag, with any white space around the
document, and whatever follows the second fence. -/
theorem extract_fenced (marks before tag front text back after : String) (v : Value)
    (hmarks : ∀ c ∈ marks.toList, c = '\uFEFF') (hbefore : '\x60' ∉ before.toList)
    (htag : tag = "" ∨ tag = "json") (hfront : isBlankText front = true)
    (hback : isBlankText back = true) (hparse : parse text = .ok v)
    (hfence : ¬ fence <:+: text.toList) :
    extract (marks ++ before ++ "\x60\x60\x60" ++ tag ++ front ++ text ++ back ++ "\x60\x60\x60" ++
      after) = .ok v := by
  have hblank₁ : ∀ c ∈ front.toList, isBlank c = true := List.all_eq_true.mp hfront
  have hblank₂ : ∀ c ∈ back.toList, isBlank c = true := List.all_eq_true.mp hback
  have hopening : '\x60' ∉ tag.toList ++ front.toList := by
    intro hmem
    rcases List.mem_append.mp hmem with hmem | hmem
    · rcases htag with rfl | rfl
      · cases hmem
      · revert hmem
        decide
    · exact not_mem_of_isBlank (by decide) hblank₁ hmem
  -- The second fence is the one behind the document: none lies in it or across its end.
  have hinside := not_fence_document hparse hfence hopening hblank₂
  rw [List.append_assoc tag.toList] at hinside
  have hblock := firstBlock?_append hmarks hbefore hinside after.toList
  rw [getD_after?_tag htag (after?_tag_document hparse hblank₁)] at hblock
  have hreply : (marks ++ before ++ "\x60\x60\x60" ++ tag ++ front ++ text ++ back ++
      "\x60\x60\x60" ++ after).toList = marks.toList ++ (before.toList ++ (fence ++
        (tag.toList ++ (front.toList ++ (text.toList ++ back.toList)) ++
          (fence ++ after.toList)))) := by
    simp [fence]
  rw [← hreply] at hblock
  obtain ⟨hvisible, htrimmed⟩ := parse_trimmed hparse hblank₁ hblank₂
  rw [extract_eq_ok_iff, payload_of_visible rfl hblock hvisible]
  exact htrimmed

/-- Of two blocks the first counts, and two backticks in a string do not end it. -/
theorem extract_fenced_twoBlocks :
    ∃ v, parse "\x7b\"a\": \"\x60\x60\"\x7d" = .ok v ∧ v.members?.isSome = true ∧
      extract ("\uFEFF" ++ "Here:\n" ++ "\x60\x60\x60" ++ "json" ++ "\n" ++
        "\x7b\"a\": \"\x60\x60\"\x7d" ++ "\n" ++ "\x60\x60\x60" ++
        "\nor \x60\x60\x60[]\x60\x60\x60") = .ok v := by
  have hparse : (parse "\x7b\"a\": \"\x60\x60\"\x7d").toOption.any (fun v => v.members?.isSome) =
      true := by decide +kernel
  have hmarks : ∀ c ∈ "\uFEFF".toList, c = '\uFEFF' := by simp
  have hbefore : '\x60' ∉ "Here:\n".toList := by decide
  have hfence : ¬ fence <:+: "\x7b\"a\": \"\x60\x60\"\x7d".toList := by decide +kernel
  obtain ⟨v, hv, hobj⟩ := exists_ok_of_any hparse
  refine ⟨v, hv, hobj, ?_⟩
  exact extract_fenced _ _ _ _ _ _ _ v hmarks hbefore (.inr rfl) (by decide) (by decide) hv hfence

end PolyLex.Remote
