import Mathlib.Data.List.Find
import PolyLex.Proofs.Scan.Positions
import PolyLex.Proofs.Scan.Lexemes
import PolyLex.Proofs.Text.LineEnds

/-!
# Line ends do not matter

A text and the same text with a carriage return before each line feed are cut at the same places:

    cutText p cur (withReturns text) = the pieces of cutText p cur text, each with its returns

The law is followed through the scanner from the inside out: the search for a close marker
(`closeEnd?_withReturns`), the ten categories (`claim?_withReturns`), the winner
(`claimOn_withReturns`), one piece (`advance_withReturns`) and all of them (`cutText_withReturns`).
A carriage return at the end of an unterminated line counts as a terminator, so the law holds only
of texts that have none.
-/

namespace PolyLex

open Text

namespace Scan

/-! ### Close markers -/

section Close

variable {escapes : Bool} {close : List Char}

/-- A mark within a line does not start with the end of one. -/
theorem startsWith_terminator (hne : close ≠ []) (hclose : NoTerminator close) {c : Char}
    (hc : c = '\n' ∨ c = '\r') (cs : List Char) : startsWith close (c :: cs) = false := by
  rw [Bool.eq_false_iff]
  intro hstarts
  obtain ⟨more, hmore⟩ := startsWith_iff.mp hstarts
  cases close with
  | nil => exact hne rfl
  | cons a close =>
    obtain ⟨hn, hr⟩ := hclose a List.mem_cons_self
    obtain ⟨rfl, -⟩ := List.cons.inj hmore
    rcases hc with h | h
    · exact hn h
    · exact hr h

/-- A terminator ends no construct and escapes nothing. -/
theorem closeEnd?_terminator (hne : close ≠ []) (hclose : NoTerminator close) {c : Char}
    (hc : c = '\n' ∨ c = '\r') (cs : List Char) :
    closeEnd? escapes close (c :: cs) = (closeEnd? escapes close cs).map (· + 1) := by
  have hescape : (escapes && c == '\\') = false := by
    rcases hc with rfl | rfl <;> simp
  rw [closeEnd?.eq_def]
  simp only [hescape, startsWith_terminator hne hclose hc, Bool.false_eq_true, if_false]

/-- Characters that are no line feeds move a length on by their number in both texts. -/
theorem map_length_withReturns_append {front : List Char} (h : '\n' ∉ front) (cs : List Char)
    (found : Option Nat) :
    (found.map fun n => (withReturns (cs.take n)).length).map (· + front.length) =
      (found.map (· + front.length)).map fun n =>
        (withReturns ((front ++ cs).take n)).length := by
  rw [Option.map_map, Option.map_map]
  congr 1
  funext n
  show (withReturns (cs.take n)).length + front.length =
    (withReturns ((front ++ cs).take (n + front.length))).length
  rw [Nat.add_comm n, List.take_length_add_append, withReturns_append, withReturns_of_not_mem h,
    List.length_append, Nat.add_comm]

/-- The search finds the marker at the same place. -/
theorem closeEnd?_withReturns (hne : close ≠ []) (hclose : NoTerminator close)
    (text : List Char) : closeEnd? escapes close (withReturns text) =
      (closeEnd? escapes close text).map fun n => (withReturns (text.take n)).length := by
  fun_induction closeEnd? escapes close text with
  | case1 => rfl
  | case2 c hc =>
    obtain ⟨rfl, rfl⟩ : escapes = true ∧ c = '\\' := by simpa using hc
    rfl
  | case3 c hc d rest ih =>
    obtain ⟨rfl, rfl⟩ : escapes = true ∧ c = '\\' := by simpa using hc
    have hslash : '\\' ≠ '\n' := by decide
    rw [withReturns_cons_of_ne hslash]
    by_cases hd : d = '\n'
    · -- The backslash escapes the carriage return, and the line feed is passed over after it.
      subst hd
      rw [withReturns_lineFeed]
      show (closeEnd? true close ('\n' :: withReturns rest)).map (· + 2) = _
      rw [closeEnd?_terminator hne hclose (.inl rfl), ih, Option.map_map, Option.map_map,
        Option.map_map]
      rfl
    · have hfront : '\n' ∉ ['\\', d] := by simp [Ne.symm hd]
      rw [withReturns_cons_of_ne hd]
      show (closeEnd? true close (withReturns rest)).map (· + 2) = _
      rw [ih]
      exact map_length_withReturns_append hfront rest _
  | case4 c cs hc hs =>
    obtain ⟨more, hmore⟩ := startsWith_iff.mp hs
    have hreturns : startsWith close (withReturns (c :: cs)) = true := by
      rw [startsWith_withReturns hclose, hs]
    have htake : withReturns ((c :: cs).take close.length) = close := by
      rw [← hmore, List.take_left, withReturns_of_not_mem hclose.not_mem]
    have hne' : c ≠ '\n' := by
      rintro rfl
      rw [startsWith_terminator hne hclose (.inl rfl)] at hs
      cases hs
    rw [withReturns_cons_of_ne hne'] at hreturns ⊢
    rw [closeEnd?.eq_def]
    simp only [hc, hreturns, if_true, Bool.false_eq_true, if_false, Option.map_some, htake]
  | case5 c cs hc hs ih =>
    by_cases hne' : c = '\n'
    · subst hne'
      rw [withReturns_lineFeed, closeEnd?_terminator hne hclose (.inr rfl),
        closeEnd?_terminator hne hclose (.inl rfl), ih, Option.map_map, Option.map_map,
        Option.map_map]
      rfl
    · have hfront : '\n' ∉ [c] := by simp [Ne.symm hne']
      have hreturns : startsWith close (withReturns (c :: cs)) = false := by
        rw [startsWith_withReturns hclose]
        simpa using hs
      rw [withReturns_cons_of_ne hne'] at hreturns ⊢
      rw [closeEnd?.eq_def]
      simp only [hc, hreturns, Bool.false_eq_true, if_false, ih]
      exact map_length_withReturns_append hfront cs _

/-- A terminator that text follows belongs to the content. -/
theorem content_terminators {cs : List Char} (h : cs ≠ []) :
    content ('\n' :: cs) = '\n' :: content cs ∧
      content ('\r' :: '\n' :: cs) = '\r' :: '\n' :: content cs := by
  obtain ⟨d, ds, rfl⟩ := List.exists_cons_of_ne_nil h
  have hfeed : content ('\n' :: d :: ds) = '\n' :: content (d :: ds) := by
    rw [content]
    all_goals simp
  refine ⟨hfeed, ?_⟩
  rw [content, hfeed]
  all_goals simp

/-- A line without its terminator is the same line. -/
theorem content_withReturns {cs : List Char} (hr : '\r' ∉ cs) :
    content (withReturns cs) = withReturns (content cs) := by
  induction cs with
  | nil => rfl
  | cons c cs ih =>
    rw [List.mem_cons, not_or] at hr
    obtain ⟨hc, hcs⟩ := hr
    by_cases hn : c = '\n'
    · subst hn
      by_cases hnil : cs = []
      · rw [hnil]
        rfl
      · rw [withReturns_lineFeed, (content_terminators (withReturns_ne_nil hnil)).2, ih hcs,
          (content_terminators hnil).1, withReturns_lineFeed]
    · rw [withReturns_cons_of_ne hn, content_cons_of_ne hn (Ne.symm hc), ih hcs,
        content_cons_of_ne hn (Ne.symm hc), withReturns_cons_of_ne hn]

end Close

/-! ### The ten categories -/

/-- What a claim on a text takes of the text with its returns. -/
def Claim.paired (rest : List Char) : Claim → Claim :=
  Claim.measured fun n => (withReturns (rest.take n)).length

/-- A claim on an opening of a text is one on the text. -/
theorem Claim.paired_append {front : List Char} {c : Claim} (h : c.length ≤ front.length)
    (more : List Char) : c.paired (front ++ more) = c.paired front := by
  rw [paired, measured, List.take_append_of_le_length h]
  rfl

/-- A claim on an opening without line feeds takes the same of both texts. -/
theorem Claim.paired_of_isPrefix {rest w : List Char} {c : Claim} (hw : w <+: rest)
    (hlen : c.length = w.length) (h : '\n' ∉ w) : c.paired rest = c := by
  rw [paired, measured, hlen, ← List.prefix_iff_eq_take.mp hw, withReturns_of_not_mem h, ← hlen]

/-- A construct is opened over the same text, with its line ends in pairs. -/
theorem openConstruct_withReturns {lead close : List Char} (hlead : NoTerminator lead)
    (hne : close ≠ []) (hclose : NoTerminator close) (kind : Kind) (escapes : Bool)
    (body : List Char) (mode : Mode) :
    Category.openConstruct kind escapes lead close (lead ++ withReturns body) (withReturns body)
        mode =
      (Category.openConstruct kind escapes lead close (lead ++ body) body mode).paired
        (lead ++ body) := by
  have hreturns : ∀ cs, withReturns (lead ++ cs) = lead ++ withReturns cs := by
    intro cs
    rw [withReturns_append, withReturns_of_not_mem hlead.not_mem]
  rw [Category.openConstruct, Category.openConstruct, closeEnd?_withReturns hne hclose]
  cases closeEnd? escapes close body with
  | none =>
    simp only [Option.map_none, Claim.paired, Claim.measured, List.take_length, hreturns]
  | some n =>
    simp only [Option.map_some, Claim.paired, Claim.measured, List.take_length_add_append,
      hreturns, List.length_append]

namespace Category

variable {p : Profile} {rest : List Char}

/-- A block comment is claimed with its line ends in pairs. -/
theorem blockCommentClaim?_withReturns (hp : p.WellMarked) (hin : p.WithinLines) :
    blockCommentClaim? p (withReturns rest) = (blockCommentClaim? p rest).map (.paired rest) := by
  unfold blockCommentClaim?
  cases hmarks : p.blockComment with
  | none => rfl
  | some marks =>
    obtain ⟨hlead, hclose⟩ := hin.blockComment marks hmarks
    have hne := toList_ne_nil (hp.blockComment marks hmarks).2
    simp only [Option.bind_eq_bind, Option.bind_some, after?_withReturns hlead]
    cases hbody : after? marks.1.toList rest with
    | none => rfl
    | some body =>
      obtain rfl := after?_eq_some_iff.mp hbody
      have hopen := openConstruct_withReturns hlead hne hclose .comment false body .blockComment
      rw [withReturns_append, withReturns_of_not_mem hlead.not_mem]
      exact congrArg some hopen

/-- A line comment is claimed as before, since it ends before the line does. -/
theorem lineCommentClaim?_withReturns (hin : p.WithinLines) (hr : '\r' ∉ rest) :
    lineCommentClaim? p (withReturns rest) = (lineCommentClaim? p rest).map (.paired rest) := by
  have hmarkers : (p.lineComments.any fun marker => startsWith marker.toList (withReturns rest)) =
      p.lineComments.any fun marker => startsWith marker.toList rest := by
    rw [Bool.eq_iff_iff, List.any_eq_true, List.any_eq_true]
    apply exists_congr
    intro marker
    apply and_congr_right
    intro hmarker
    rw [startsWith_withReturns (hin.lineComments marker hmarker)]
  rw [lineCommentClaim?, lineCommentClaim?, hmarkers]
  split
  · rw [content_withReturns hr, Option.map_some, Claim.paired, Claim.measured,
      take_length_content]
  · rfl

/-- A block string is claimed with its line ends in pairs. -/
theorem blockStringClaim?_withReturns (hp : p.WellMarked) (hin : p.WithinLines) :
    blockStringClaim? p (withReturns rest) = (blockStringClaim? p rest).map (.paired rest) := by
  -- The same delimiter is found, since none has a line end in it.
  have hfind : p.blockStrings.find? (fun d => startsWith d.toList (withReturns rest)) =
      p.blockStrings.find? fun d => startsWith d.toList rest := by
    apply List.find?_congr
    intro d hd
    exact startsWith_withReturns (hin.blockStrings d hd) rest
  unfold blockStringClaim?
  rw [hfind]
  cases hfound : p.blockStrings.find? fun d => startsWith d.toList rest with
  | none => rfl
  | some delimiter =>
    have hmem := List.mem_of_find?_eq_some hfound
    have hinLine := hin.blockStrings delimiter hmem
    have hne := toList_ne_nil (hp.blockStrings delimiter hmem).1
    simp only [Option.bind_eq_bind, Option.bind_some, after?_withReturns hinLine]
    cases hbody : after? delimiter.toList rest with
    | none => rfl
    | some body =>
      obtain rfl := after?_eq_some_iff.mp hbody
      have hopen := openConstruct_withReturns hinLine hne hinLine .string true body
        (.blockString delimiter)
      rw [withReturns_append, withReturns_of_not_mem hinLine.not_mem]
      exact congrArg some hopen

/-- A terminator opens no literal. -/
theorem quoteKind?_terminator (hp : p.QuotesInLine) {c : Char} (hc : c = '\n' ∨ c = '\r') :
    quoteKind? p c = none := by
  rw [Option.eq_none_iff_forall_not_mem]
  intro kind hkind
  obtain ⟨hn, hr⟩ := hp c (mem_of_quoteKind? hkind)
  exact hc.elim hn hr

theorem quotedClaim?_withReturns (hp : p.WellMarked) (hr : '\r' ∉ rest) :
    quotedClaim? p (withReturns rest) = (quotedClaim? p rest).map (.paired rest) := by
  cases rest with
  | nil => rfl
  | cons c cs =>
    by_cases hc : c = '\n'
    · subst hc
      simp only [quotedClaim?, withReturns_lineFeed, List.head?_cons, Option.bind_eq_bind,
        Option.bind_some, quoteKind?_terminator hp.quotesInLine (.inl rfl),
        quoteKind?_terminator hp.quotesInLine (.inr rfl)]
      rfl
    · cases hkind : quoteKind? p c with
      | none =>
        simp only [quotedClaim?, withReturns_cons_of_ne hc, List.head?_cons, Option.bind_eq_bind,
          Option.bind_some, hkind]
        rfl
      | some kind =>
        have hhead : (c :: cs).head? = some c := rfl
        obtain ⟨body, hline⟩ := exists_content_eq_cons hp hhead hkind
        have hquote : NoTerminator [c] := by
          intro d hd
          rw [List.mem_singleton.mp hd]
          exact hp.quotesInLine c (mem_of_quoteKind? hkind)
        have hreturns : content (withReturns (c :: cs)) = c :: withReturns body := by
          rw [content_withReturns hr, hline, withReturns_cons_of_ne hc]
        rw [quotedClaim?_eq_openConstruct hkind hline, quotedClaim?_eq_openConstruct hkind hreturns]
        -- The claim is made on the content, which opens the text.
        obtain ⟨ending, hrest⟩ := content_isPrefix (c :: cs)
        have hmode : Mode.FitsIn p .normal := trivial
        have hle := (sound_openConstruct hmode kind true [c] [c] body).length_le
        have hopen := openConstruct_withReturns hquote (List.cons_ne_nil c []) hquote kind true body
          .normal
        rw [Option.map_some, ← hrest, hline]
        exact congrArg some (hopen.trans (Claim.paired_append hle ending).symm)

/-! ### Claims without line feeds -/

/-- An opening without terminators opens both texts. -/
theorem isPrefix_withReturns_iff {w : List Char} (hw : NoTerminator w) :
    w <+: withReturns rest ↔ w <+: rest := by
  rw [← startsWith_iff, ← startsWith_iff, startsWith_withReturns hw]

/-- A class without line feeds and carriage returns makes texts without them. -/
theorem noTerminator_of_all {q : Char → Bool} (hn : q '\n' = false) (hr : q '\r' = false)
    {w : List Char} (h : ∀ c ∈ w, q c = true) : NoTerminator w := by
  intro c hc
  have hq := h c hc
  constructor
  · rintro rfl
    rw [hn] at hq
    cases hq
  · rintro rfl
    rw [hr] at hq
    cases hq

theorem noTerminator_cons {c : Char} {w : List Char} (hc : c ≠ '\n' ∧ c ≠ '\r')
    (hw : NoTerminator w) : NoTerminator (c :: w) := by
  intro d hd
  rcases List.mem_cons.mp hd with rfl | hd
  · exact hc
  · exact hw d hd

theorem noTerminator_of_isNumber {w : List Char} (h : IsNumber w) : NoTerminator w := by
  have hdigits : ∀ {ds : List Char}, (∀ d ∈ ds, isDigit d = true) → NoTerminator ds :=
    noTerminator_of_all (by decide) (by decide)
  have hpoint : ∀ {fs : List Char}, (∀ d ∈ fs, isDigit d = true) → NoTerminator ('.' :: fs) :=
    fun hfs => noTerminator_cons (by decide) (hdigits hfs)
  cases h with
  | hex hx _ hds =>
    apply noTerminator_cons (by decide)
    apply noTerminator_cons
    · rcases hx with rfl | rfl <;> decide
    · exact noTerminator_of_all (by decide) (by decide) hds
  | whole _ hds => exact hdigits hds
  | decimal _ hds _ hfs =>
    intro c hc
    rcases List.mem_append.mp hc with hc | hc
    · exact hdigits hds c hc
    · exact hpoint hfs c hc
  | fraction _ hfs => exact hpoint hfs

/-- A text has no longer number than another if its numbers open the other too. -/
theorem numberLength_le_of_isPrefix {cs ds : List Char}
    (h : ∀ w, IsNumber w → w <+: cs → w <+: ds) : numberLength cs ≤ numberLength ds := by
  by_cases hzero : numberLength cs = 0
  · rw [hzero]
    exact Nat.zero_le _
  · have hnumber := isNumber_take_numberLength hzero
    have hle := length_le_numberLength (h _ hnumber (List.take_prefix _ cs)) hnumber
    rwa [List.length_take, Nat.min_eq_left (numberLength_le cs)] at hle

theorem numberClaim?_withReturns (rest : List Char) :
    numberClaim? (withReturns rest) = (numberClaim? rest).map (.paired rest) := by
  -- A number has no terminator in it, so the texts with and without returns begin with the same
  -- ones.
  have hlen : numberLength (withReturns rest) = numberLength rest := by
    apply Nat.le_antisymm
    · apply numberLength_le_of_isPrefix
      intro w hw
      exact (isPrefix_withReturns_iff (noTerminator_of_isNumber hw)).mp
    · apply numberLength_le_of_isPrefix
      intro w hw
      exact (isPrefix_withReturns_iff (noTerminator_of_isNumber hw)).mpr
  simp only [numberClaim?, hlen]
  split
  · rfl
  · next hne =>
    have hnumber := noTerminator_of_isNumber (isNumber_take_numberLength hne)
    have hlength : (rest.take (numberLength rest)).length = numberLength rest := by
      rw [List.length_take, Nat.min_eq_left (numberLength_le rest)]
    exact congrArg some
      (Claim.paired_of_isPrefix (List.take_prefix _ rest) hlength.symm hnumber.not_mem).symm

theorem isWordStart_terminator (hin : p.WithinLines) {c : Char} (hc : c = '\n' ∨ c = '\r') :
    p.isWordStart c = false := by
  rw [Profile.not_isWordStart_iff]
  rcases hc with rfl | rfl
  · exact ⟨by decide, by decide, hin.identifierExtras.not_mem⟩
  · exact ⟨by decide, by decide, fun hmem => (hin.identifierExtras _ hmem).2 rfl⟩

theorem isWordPart_terminator (hin : p.WithinLines) {c : Char} (hc : c = '\n' ∨ c = '\r') :
    p.isWordPart c = false := by
  have hnumeric : isNumeric c = false := by
    rcases hc with rfl | rfl <;> decide
  obtain ⟨halphabetic, hunderscore, hextras⟩ :=
    Profile.not_isWordStart_iff.mp (isWordStart_terminator hin hc)
  simp [Profile.isWordPart, isAlphanumeric, halphabetic, hnumeric, hunderscore, hextras]

theorem noTerminator_of_isWord (hin : p.WithinLines) {w : List Char} (h : p.IsWord w) :
    NoTerminator w := by
  obtain ⟨c, cs, rfl, hstart, hcs⟩ := h
  intro d hd
  rw [← not_or]
  intro hterminator
  rcases List.mem_cons.mp hd with rfl | hd
  · rw [isWordStart_terminator hin hterminator] at hstart
    cases hstart
  · have hpart := hcs d hd
    rw [isWordPart_terminator hin hterminator] at hpart
    cases hpart

theorem wordClaim?_withReturns (hin : p.WithinLines) :
    wordClaim? p (withReturns rest) = (wordClaim? p rest).map (.paired rest) := by
  -- Neither terminator starts a word.
  have hstart : ∀ {c : Char}, c = '\n' ∨ c = '\r' → ∀ cs, wordClaim? p (c :: cs) = none := by
    intro c hc cs
    rw [wordClaim?, isWordStart_terminator hin hc]
    rfl
  cases rest with
  | nil => rfl
  | cons c cs =>
    by_cases hc : c = '\n'
    · subst hc
      rw [withReturns_lineFeed, hstart (.inr rfl), hstart (.inl rfl)]
      rfl
    · have hrun : (withReturns cs).takeWhile p.isWordPart = cs.takeWhile p.isWordPart :=
        takeWhile_withReturns_of_false (isWordPart_terminator hin (.inl rfl))
          (isWordPart_terminator hin (.inr rfl)) cs
      rw [withReturns_cons_of_ne hc, wordClaim?, wordClaim?, hrun]
      split
      · have hword : c :: cs.takeWhile p.isWordPart <+: c :: cs :=
          (List.prefix_cons_inj c).mpr (List.takeWhile_prefix p.isWordPart)
        -- The word has no line feed, so its lexeme stays as it is.
        have hmem : '\n' ∉ c :: cs.takeWhile p.isWordPart := by
          rintro (_ | ⟨_, hmem⟩)
          · exact hc rfl
          · have hpart := of_mem_takeWhile _ hmem
            rw [isWordPart_terminator hin (.inl rfl)] at hpart
            cases hpart
        exact congrArg some (Claim.paired_of_isPrefix hword rfl hmem).symm
      · rfl

theorem operatorClaim?_withReturns (hin : p.WithinLines) :
    operatorClaim? p (withReturns rest) = (operatorClaim? p rest).map (.paired rest) := by
  have hfind : p.operators.find? (fun op => startsWith op.toList (withReturns rest)) =
      p.operators.find? fun op => startsWith op.toList rest := by
    apply List.find?_congr
    intro op hop
    exact startsWith_withReturns (hin.operators op hop).2 rest
  unfold operatorClaim?
  rw [hfind]
  cases hfound : p.operators.find? fun op => startsWith op.toList rest with
  | none => rfl
  | some op =>
    have hstarts : startsWith op.toList rest = true := by
      simpa using List.find?_some hfound
    have hprefix := startsWith_iff.mp hstarts
    have hmem := (hin.operators op (List.mem_of_find?_eq_some hfound)).2.not_mem
    exact congrArg some
      (Claim.paired_of_isPrefix hprefix String.length_toList.symm hmem).symm

theorem singleClaim?_withReturns {kind : Kind} {table : List Char} (h : NoTerminator table) :
    singleClaim? kind table (withReturns rest) =
      (singleClaim? kind table rest).map (.paired rest) := by
  have hno : ∀ {c : Char}, c ∉ table → ∀ cs, singleClaim? kind table (c :: cs) = none := by
    intro c hc cs
    simp [singleClaim?, hc]
  cases rest with
  | nil => rfl
  | cons c cs =>
    by_cases hc : c ∈ table
    · have hn := (h c hc).1
      rw [withReturns_cons_of_ne hn]
      simp only [singleClaim?, List.head?_cons, Option.bind_eq_bind, Option.bind_some,
        List.contains_iff_mem, if_pos hc]
      have hmem : '\n' ∉ [c] := by simp [Ne.symm hn]
      exact congrArg some (Claim.paired_of_isPrefix (List.prefix_append [c] cs) rfl hmem).symm
    · rw [hno hc]
      -- The carriage return that comes to stand first is not in the table either.
      by_cases hn : c = '\n'
      · subst hn
        exact hno (fun hmem => (h _ hmem).2 rfl) _
      · rw [withReturns_cons_of_ne hn, hno hc]
        rfl

/-- White space is claimed with its line ends in pairs. -/
theorem whitespaceClaim?_withReturns (rest : List Char) :
    whitespaceClaim? (withReturns rest) = (whitespaceClaim? rest).map (.paired rest) := by
  have hblank : isBlank '\r' = isBlank '\n' := by decide
  rw [whitespaceClaim?, whitespaceClaim?, runLength, takeWhile_withReturns hblank,
    ← take_runLength]
  rfl

/-- Every category claims the same of both texts. -/
theorem claim?_withReturns (hp : p.WellMarked) (hin : p.WithinLines) (hr : '\r' ∉ rest)
    (category : Category) : category.claim? p (withReturns rest) =
      (category.claim? p rest).map (.paired rest) := by
  cases category with
  | blockComment => exact blockCommentClaim?_withReturns hp hin
  | lineComment => exact lineCommentClaim?_withReturns hin hr
  | blockString => exact blockStringClaim?_withReturns hp hin
  | quoted => exact quotedClaim?_withReturns hp hr
  | number => exact numberClaim?_withReturns rest
  | word => exact wordClaim?_withReturns hin
  | operator => exact operatorClaim?_withReturns hin
  | punctuation => exact singleClaim?_withReturns hin.punctuation
  | delimiter => exact singleClaim?_withReturns hin.delimiters
  | whitespace => exact whitespaceClaim?_withReturns rest

end Category

/-! ### One piece -/

variable {p : Profile}

/-- The longest claim stays the longest, with its line ends in pairs. -/
theorem claimAt_withReturns (hp : p.WellMarked) (hin : p.WithinLines) {rest : List Char}
    (hr : '\r' ∉ rest) (hrest : rest ≠ []) :
    claimAt p (withReturns rest) = (claimAt p rest).paired rest := by
  obtain ⟨hlongest, -⟩ := longestClaim?_measured (p := p)
    (g := fun n => (withReturns (rest.take n)).length) rfl length_withReturns_take_lt_iff
    (Category.claim?_withReturns hp hin hr) Category.all
  rw [claimAt, claimAt, hlongest]
  cases hwin : longestClaim? Category.all p rest with
  | some c => rfl
  | none =>
    -- A line feed would have been claimed as white space.
    obtain ⟨c, cs, rfl⟩ := List.exists_cons_of_ne_nil hrest
    have hblank : Category.whitespace.claim? p (c :: cs) =
        some { kind := .whitespace, length := Category.runLength isBlank (c :: cs) } := rfl
    have hle := length_le_reach Category.whitespace.mem_all hblank
    rw [hwin] at hle
    refine (Claim.paired_of_isPrefix (List.prefix_append [c] cs) rfl ?_).symm
    rw [List.mem_singleton]
    rintro rfl
    exact absurd hle (Nat.not_succ_le_zero _)

namespace Cursor

/-- In each mode, the claim on a line is the same with its line ends in pairs. -/
theorem claimOn_withReturns (hp : p.WellMarked) (hin : p.WithinLines) {cur : Cursor}
    (hfit : cur.mode.FitsIn p) {rest : List Char} (hr : '\r' ∉ rest) (hrest : rest ≠ []) :
    cur.claimOn p (withReturns rest) = (cur.claimOn p rest).paired rest := by
  have hlead : NoTerminator [] := by decide
  unfold claimOn
  cases hmode : cur.mode with
  | normal => exact claimAt_withReturns hp hin hr hrest
  | blockComment =>
    rw [hmode] at hfit
    obtain ⟨marks, hmarks⟩ := Option.isSome_iff_exists.mp hfit
    rw [hmarks]
    exact openConstruct_withReturns hlead (toList_ne_nil (hp.blockComment marks hmarks).2)
      (hin.blockComment marks hmarks).2 .comment false rest .blockComment
  | blockString delimiter =>
    rw [hmode] at hfit
    exact openConstruct_withReturns hlead (toList_ne_nil (hp.blockStrings delimiter hfit).1)
      (hin.blockStrings delimiter hfit) .string true rest (.blockString delimiter)

end Cursor

/-- The piece with a carriage return before each line feed. -/
def Piece.paired (x : Piece) : Piece := { x with lexeme := withReturns x.lexeme }

namespace Cursor

/-- A lexeme of a line moves the cursor to the same place as the lexeme with its return. -/
theorem skip_withReturns (cur : Cursor) (mode : Mode) {w : List Char} (hw : '\n' ∉ w.dropLast) :
    (cur.skip (withReturns w) mode).endLine (withReturns w) = (cur.skip w mode).endLine w := by
  rcases eq_concat_of_not_mem_dropLast hw with hmem | hlast
  · rw [withReturns_of_not_mem hmem]
  · -- Behind a line feed the cursor is in the first column, however long the line was.
    generalize w.dropLast = v at hlast
    subst hlast
    have hreturns : (withReturns (v ++ ['\n'])).getLast? = some '\n' := by
      rw [withReturns_append]
      simp
    have hfeed : (v ++ ['\n']).getLast? = some '\n' := List.getLast?_concat
    rw [endLine, if_pos hreturns, endLine, if_pos hfeed]
    rfl

/-- One step forward takes the same piece, with its line ends in pairs, to the same place. -/
theorem advance_withReturns (hp : p.WellMarked) (hin : p.WithinLines) {cur : Cursor}
    (hfit : cur.mode.FitsIn p) {text : List Char} (hr : '\r' ∉ text) (htext : text ≠ []) :
    advance p cur (withReturns text) = ((advance p cur text).1.paired, (advance p cur text).2) := by
  have hline : '\r' ∉ (firstLine text).1 := fun hmem => hr ((firstLine_isPrefix text).subset hmem)
  have hclaim := claimOn_withReturns hp hin hfit hline (firstLine_ne_nil htext)
  have hskip := skip_withReturns cur (cur.claimOn p (firstLine text).1).next
    (not_mem_dropLast_take_firstLine text (cur.claimOn p (firstLine text).1).length)
  simp only [advance, firstLine_withReturns, hclaim, Claim.paired, Claim.measured,
    take_withReturns, hskip]
  rfl

/-- Cutting the text with its returns gives the pieces of the text, each with its returns. -/
theorem cutText_withReturns (hp : p.WellMarked) (hin : p.WithinLines) {n : Nat} :
    ∀ {cur : Cursor} {text : List Char}, text.length ≤ n → cur.mode.FitsIn p → '\r' ∉ text →
      cutText p cur (withReturns text) =
        ((cutText p cur text).1.map Piece.paired, (cutText p cur text).2) := by
  -- The induction is on the characters that are left, of which each piece takes some.
  induction n with
  | zero =>
    intro cur text hlen hfit hr
    rw [List.length_eq_zero_iff.mp (Nat.le_zero.mp hlen), withReturns_nil, cutText_nil]
    rfl
  | succ n ih =>
    intro cur text hlen hfit hr
    by_cases htext : text = []
    · rw [htext, withReturns_nil, cutText_nil]
      rfl
    · have hpos := length_lexeme_advance_pos hp.closersNonempty hfit htext
      have hprefix := lexeme_advance_isPrefix p cur text
      have hlen' : (text.drop (advance p cur text).1.lexeme.length).length ≤ n := by
        rw [List.length_drop]
        omega
      have hr' : '\r' ∉ text.drop (advance p cur text).1.lexeme.length :=
        fun hmem => hr (List.mem_of_mem_drop hmem)
      have hnext := ih hlen' (fits_advance hfit htext) hr'
      rw [cutText_cons hfit (withReturns_ne_nil htext), cutText_cons hfit htext]
      simp only [advance_withReturns hp hin hfit hr htext, Piece.paired, drop_withReturns hprefix,
        hnext]
      rfl

end Cursor

/-! ### The tokens of a source -/

/-- The text with each line feed turned into the pair of carriage return and line feed. -/
def pairLineEnds (text : String) : String := String.ofList (withReturns text.toList)

end Scan

/-- The token with the line ends of its lexeme paired. -/
def Token.paired (t : Token) : Token := { t with lexeme := Scan.pairLineEnds t.lexeme }

theorem Summary.ofTokens_paired (tokens : List Token) :
    ofTokens (tokens.map Token.paired) = ofTokens tokens := by
  rw [ofTokens, List.foldl_map]
  rfl

namespace Scan

/-- The token of a piece changes as its lexeme does. -/
theorem Piece.token_paired (x : Piece) : x.paired.token = x.token.paired := by
  show Token.located x.kind (withReturns x.lexeme) _ _ =
    ⟨x.kind, pairLineEnds (String.ofList x.lexeme), _, _⟩
  rw [pairLineEnds, String.toList_ofList]
  rfl

/-- Line ends do not change the analysis: with pairs of carriage return and line feed for its line
feeds a source has the same tokens at the same places, each with its own line ends paired, and the
same summary. -/
theorem scan_pairLineEnds (l : Language) (source : String) (hsource : '\r' ∉ source.toList) :
    (l.profile.scan (pairLineEnds source)).tokens =
        (l.profile.scan source).tokens.map Token.paired ∧
      (l.profile.scan (pairLineEnds source)).summary = (l.profile.scan source).summary := by
  have hcut := Cursor.cutText_withReturns l.wellMarked_profile l.withinLines_profile (Nat.le_refl _)
    (Cursor.fits_start l.profile) hsource
  have htokens : (l.profile.scan (pairLineEnds source)).tokens =
      (l.profile.scan source).tokens.map Token.paired := by
    rw [Profile.tokens_scan, Profile.tokens_scan, List.map_map]
    show (Cursor.cutText l.profile {} (pairLineEnds source).toList).1.map Piece.token = _
    rw [pairLineEnds, String.toList_ofList, hcut, List.map_map]
    exact List.map_congr_left fun x _ => Piece.token_paired x
  refine ⟨htokens, ?_⟩
  show Summary.ofTokens (l.profile.scan (pairLineEnds source)).tokens =
    Summary.ofTokens (l.profile.scan source).tokens
  rw [htokens, Summary.ofTokens_paired]

/-- A Python string over two lines: the backslash at the end of the first line escapes the line feed
alone, or the carriage return of the pair. -/
theorem scan_pairLineEnds_escaped :
    '\r' ∉ "'''a\\\n'''b".toList ∧
    pairLineEnds "'''a\\\n'''b" = "'''a\\\r\n'''b" ∧
    (Language.python.profile.scan "'''a\\\r\n'''b").tokens =
      [.located .string "'''a\\\r\n".toList 1 1, .located .string "'''".toList 2 1,
        .located .identifier ['b'] 2 4] := by
  have hsource : '\r' ∉ "'''a\\\n'''b".toList := by decide +kernel
  have hpaired : pairLineEnds "'''a\\\n'''b" = "'''a\\\r\n'''b" := by decide +kernel
  have hcut : Cursor.cutSteps Language.python.profile 3 {} "'''a\\\n'''b".toList =
      some [⟨{}, .string, "'''a\\\n".toList⟩,
        ⟨{ mode := .blockString "'''", line := 2 }, .string, "'''".toList⟩,
        ⟨{ line := 2, column := 4 }, .identifier, ['b']⟩] := by decide +kernel
  have hpieces := Cursor.cutText_of_cutSteps (Cursor.fits_start Language.python.profile) hcut
  have htokens := (scan_pairLineEnds .python _ hsource).1
  rw [hpaired, Profile.tokens_scan _ "'''a\\\n'''b"] at htokens
  refine ⟨hsource, hpaired, htokens.trans ?_⟩
  show ((Cursor.cutText Language.python.profile {} "'''a\\\n'''b".toList).1.map
    Piece.token).map Token.paired = _
  rw [hpieces]
  decide +kernel

end Scan

end PolyLex
