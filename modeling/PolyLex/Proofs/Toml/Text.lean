import PolyLex.Proofs.Text.Ends
import PolyLex.Toml.Printer
import PolyLex.Toml.Text

/-!
# Texts come back

A text that is written in one of its four forms is read back from there (`readText_textChars`).
Between double quotes each character is spelled by itself or by an escape (`Spells`), and quotes are
left alone as long as they cannot be taken for the closing ones. Between single quotes there are no
escapes, so these forms are only chosen for texts without a run of quotes that closes them.
-/

namespace PolyLex.Toml

open Text

@[simp] theorem before_some (c : Char) (cs rest : List Char) :
    before (some c) (some (cs, rest)) = some (c :: cs, rest) := rfl

/-! ### Spelling a character -/

/-- What stands for a character between double quotes. -/
inductive Spells : Char → List Char → Prop
  | letter {e c : Char} : escaped? e = some c → Spells c ['\\', e]
  | number {a b c : Char} : hexChar? ['0', '0', a, b] = some c →
      Spells c ['\\', 'u', '0', '0', a, b]
  | plain {c : Char} : isPlain c = true → c ≠ '"' → c ≠ '\\' → Spells c [c]

theorem spells_quote : Spells '"' ['\\', '"'] := .letter rfl

/-- The letters of escapes. -/
theorem mem_of_escaped? {e c : Char} (h : escaped? e = some c) :
    e ∈ ['b', 't', 'n', 'f', 'r', '"', '\\'] := by
  unfold escaped? at h
  split at h
  all_goals first | decide | cases h

/-- No letter of an escape starts a number or is white space. -/
theorem ne_of_escaped? {e c : Char} (h : escaped? e = some c) :
    e ≠ 'u' ∧ e ≠ 'U' ∧ ∀ rest, isBlankLine (e :: rest) = false := by
  have hmem := mem_of_escaped? h
  simp only [List.mem_cons, List.not_mem_nil, or_false] at hmem
  rcases hmem with rfl | rfl | rfl | rfl | rfl | rfl | rfl <;>
    exact ⟨by decide, by decide, fun _ => rfl⟩

theorem ne_return_of_isPlain {c : Char} (h : isPlain c = true ∨ c = '\n') : c ≠ '\r' := by
  rintro rfl
  revert h
  decide

/-- The four digits of a control character stand for it. -/
theorem hexChar?_control : ∀ n < 0x80,
    hexChar? ['0', '0', capitalHexDigit (n / 16), capitalHexDigit (n % 16)] = some (Char.ofNat n) := by
  decide

/-- Every character but the quote is spelled by its escape. -/
theorem spells_escape {c : Char} (hc : c ≠ '"') : Spells c (escape c) := by
  -- Six characters have a letter of their own, other control characters their number.
  by_cases hletter : c ∈ ['\x08', '\t', '\n', '\x0c', '\r', '\\']
  · simp only [List.mem_cons, List.not_mem_nil, or_false] at hletter
    rcases hletter with rfl | rfl | rfl | rfl | rfl | rfl <;> exact .letter rfl
  · simp only [List.mem_cons, List.not_mem_nil, or_false, not_or] at hletter
    by_cases hcontrol : c < ' ' ∨ c = '\x7F'
    · have hnat : c.toNat < 0x80 := by
        rcases hcontrol with hlt | rfl
        · have hspace : c.toNat < ' '.toNat := hlt
          exact Nat.lt_trans hspace (by decide)
        · decide
      have hnumber := hexChar?_control c.toNat hnat
      rw [Char.ofNat_toNat] at hnumber
      have hescape : escape c =
          ['\\', 'u', '0', '0', capitalHexDigit (c.toNat / 16), capitalHexDigit (c.toNat % 16)] := by
        simp [escape, hletter, hcontrol]
      rw [hescape]
      exact .number hnumber
    · have hescape : escape c = [c] := by simp [escape, hletter, hcontrol]
      rw [not_or, Char.not_lt] at hcontrol
      rw [hescape]
      exact .plain (by simp [isPlain, hcontrol]) hc hletter.2.2.2.2.2

/-! ### Between double quotes -/

section DoubleQuotes

variable {c : Char} {cs : List Char}

/-- A spelled character is read as that character. -/
theorem readBasic_spells (h : Spells c cs) (rest : List Char) :
    readBasic (cs ++ rest) = before (some c) (readBasic rest) := by
  cases h with
  | letter he =>
    obtain ⟨hu, hU, -⟩ := ne_of_escaped? he
    rw [List.cons_append, List.cons_append, List.nil_append, readBasic, he]
    · exact fun _ _ _ _ _ heq _ => hu heq
    · exact fun _ _ _ _ _ _ _ _ _ heq _ => hU heq
  | number h => simp [readBasic, h]
  | plain hplain _ hslash => simp [readBasic, hplain, hslash]

/-- An escaped text is read back, up to the quote that closes it. -/
theorem readBasic_escapeAll (cs rest : List Char) :
    readBasic (escapeAll false 0 0 cs ++ '"' :: rest) = some (cs, rest) := by
  induction cs with
  | nil => simp [escapeAll, readBasic]
  | cons c cs ih =>
    rw [escapeAll]
    by_cases hc : c = '"'
    · subst hc
      rw [if_pos rfl, if_neg (Nat.lt_irrefl 0)]
      have hquote := readBasic_spells spells_quote (escapeAll false 0 0 cs ++ '"' :: rest)
      rwa [ih, before_some] at hquote
    · rw [if_neg hc, if_neg (by simp), List.append_assoc, readBasic_spells (spells_escape hc), ih,
        before_some]

theorem Spells.exists_cons (h : Spells c cs) (hc : c ≠ '"') : ∃ d w, cs = d :: w ∧ d ≠ '"' := by
  cases h with
  | letter => exact ⟨_, _, rfl, by decide⟩
  | number => exact ⟨_, _, rfl, by decide⟩
  | plain => exact ⟨_, _, rfl, hc⟩

/-- What is written starts with a quote only if a quote may stand there as it is. -/
theorem exists_escapeAll_cons (long : Bool) {quotes run : Nat} {c : Char}
    (h : c ≠ '"' ∨ quotes ≤ run) (cs : List Char) :
    ∃ d w, escapeAll long quotes run (c :: cs) = d :: w ∧ d ≠ '"' := by
  rw [escapeAll]
  by_cases hc : c = '"'
  · rw [if_pos hc, if_neg (Nat.not_lt.mpr (h.resolve_left (· hc)))]
    exact ⟨_, _, rfl, by decide⟩
  · rw [if_neg hc]
    split
    · exact ⟨_, _, rfl, hc⟩
    · obtain ⟨d, w, hescape, hd⟩ := (spells_escape hc).exists_cons hc
      exact ⟨d, w ++ _, by rw [hescape]; rfl, hd⟩

/-- In a long text, a plain character stands for itself if it does not close the text. -/
theorem readLongBasic_char {c : Char} {rest : List Char} (hplain : isPlain c = true ∨ c = '\n')
    (hslash : c ≠ '\\') (hquote : c = '"' → ¬['"', '"'] <+: rest) :
    readLongBasic false (c :: rest) = before (some c) (readLongBasic false rest) := by
  rw [readLongBasic.eq_8]
  · simp [hplain]
  · exact fun more hc hrest => hquote hc ⟨_, hrest.symm⟩
  · exact fun more hc hrest => hquote hc ⟨_, hrest.symm⟩
  · exact fun more hc hrest => hquote hc ⟨_, hrest.symm⟩
  · exact fun _ _ _ _ _ hc _ => hslash hc
  · exact fun _ _ _ _ _ _ _ _ _ hc _ => hslash hc
  · exact fun _ _ hc _ => hslash hc
  · exact fun _ hc _ => ne_return_of_isPlain hplain hc

/-- In a long text, a spelled character is read as that character. -/
theorem readLongBasic_spells (h : Spells c cs) (rest : List Char) :
    readLongBasic false (cs ++ rest) = before (some c) (readLongBasic false rest) := by
  cases h with
  | letter he =>
    obtain ⟨hu, hU, hblank⟩ := ne_of_escaped? he
    rw [List.cons_append, List.cons_append, List.nil_append, readLongBasic.eq_6, he,
      if_neg (by rw [hblank]; simp)]
    · exact fun _ _ _ _ _ heq _ => hu heq
    · exact fun _ _ _ _ _ _ _ _ _ heq _ => hU heq
  | number h => simp [readLongBasic, h]
  | plain hplain hquote hslash =>
    exact readLongBasic_char (.inl hplain) hslash fun hc => absurd hc hquote

/-- The closing quotes, and up to two that belong to the text before them. -/
theorem readLongBasic_close {rest : List Char} (h : rest.head? ≠ some '"') {n : Nat} (hn : n ≤ 2) :
    readLongBasic false (List.replicate n '"' ++ '"' :: '"' :: '"' :: rest) =
      some (List.replicate n '"', rest) := by
  have hclose : readLongBasic false ('"' :: '"' :: '"' :: rest) = some ([], rest) := by
    rw [readLongBasic.eq_3] <;> rintro _ rfl <;> exact h rfl
  -- A quote before the three that close is text, as long as no sixth one follows.
  have hone : readLongBasic false ('"' :: '"' :: '"' :: '"' :: rest) = some (['"'], rest) := by
    rw [readLongBasic.eq_2, hclose, before_some]
    rintro _ rfl
    exact h rfl
  have htwo : readLongBasic false ('"' :: '"' :: '"' :: '"' :: '"' :: rest) =
      some (['"', '"'], rest) := by
    rw [readLongBasic.eq_2, hone, before_some]
    rintro _ hrest
    exact h (by simp_all)
  match n, hn with
  | 0, _ => exact hclose
  | 1, _ => exact hone
  | 2, _ => exact htwo

/-- One or two quotes in a row need no escape in a long text. -/
theorem escapeAll_replicate {run n : Nat} (h : run + n ≤ 2) :
    escapeAll true 2 run (List.replicate n '"') = List.replicate n '"' := by
  induction n generalizing run with
  | zero => rfl
  | succ n ih => rw [List.replicate_succ, escapeAll, if_pos rfl, if_pos (by omega), ih (by omega)]

/-- Three quotes in a row are not written, `run` quotes right before included, unless it is a few
quotes that are written and the closing ones follow. -/
theorem not_replicate_escapeAll (back : List Char) {run : Nat} (hrun : run ≤ 2) (cs : List Char) :
    (∃ n, run + n ≤ 2 ∧ cs = List.replicate n '"') ∨
      ¬List.replicate (3 - run) '"' <+: escapeAll true 2 run cs ++ back := by
  induction cs generalizing run with
  | nil => exact .inl ⟨0, hrun, rfl⟩
  | cons c cs ih =>
    have hsucc : List.replicate (3 - run) '"' = '"' :: List.replicate (3 - (run + 1)) '"' := by
      rw [← List.replicate_succ]
      congr 1
      omega
    -- The third quote in a row is escaped, so the run ends before it.
    by_cases hc : c = '"' ∧ run < 2
    · obtain ⟨rfl, hlt⟩ := hc
      rcases ih hlt with ⟨n, hn, rfl⟩ | hnot
      · exact .inl ⟨n + 1, by omega, rfl⟩
      · right
        rw [escapeAll, if_pos rfl, if_pos hlt, hsucc, List.cons_append, List.cons_prefix_cons]
        exact fun h => hnot h.2
    · right
      rw [not_and_or, Nat.not_lt] at hc
      obtain ⟨d, w, hw, hd⟩ := exists_escapeAll_cons true hc cs
      rw [hw, hsucc, List.cons_append, List.cons_prefix_cons]
      exact fun h => hd h.1.symm

/-- By induction on the text: `run` quotes stand right before it. -/
theorem readLongBasic_escapeAll {rest : List Char} (h : rest.head? ≠ some '"') {run : Nat}
    (hrun : run ≤ 2) (cs : List Char) :
    readLongBasic false (escapeAll true 2 run cs ++ '"' :: '"' :: '"' :: rest) =
      some (cs, rest) := by
  induction cs generalizing run with
  | nil => exact readLongBasic_close h (Nat.zero_le 2)
  | cons c cs ih =>
    rcases not_replicate_escapeAll ('"' :: '"' :: '"' :: rest) hrun (c :: cs) with
      ⟨n, hn, heq⟩ | hnot
    · rw [heq, escapeAll_replicate hn]
      exact readLongBasic_close h (by omega)
    · rw [escapeAll] at hnot ⊢
      by_cases hc : c = '"'
      · subst hc
        rw [if_pos rfl] at hnot ⊢
        by_cases hlt : run < 2
        · -- the quote stands as it is, and at most one more follows
          rw [if_pos hlt] at hnot ⊢
          rw [List.cons_append, readLongBasic_char (.inl rfl) (by decide), ih hlt, before_some]
          intro _ htwo
          have hfew : List.replicate (3 - run) '"' <+: ['"', '"', '"'] := by
            match run, hlt with
            | 0, _ => decide
            | 1, _ => decide
          exact hnot (hfew.trans (List.cons_prefix_cons.mpr ⟨rfl, htwo⟩))
        · rw [if_neg hlt]
          have hquote := readLongBasic_spells spells_quote
            (escapeAll true 2 0 cs ++ '"' :: '"' :: '"' :: rest)
          rwa [ih (Nat.zero_le 2), before_some] at hquote
      · rw [if_neg hc]
        split
        · next hbreak =>
          rw [hbreak.1, List.cons_append, readLongBasic_char (.inr rfl) (by decide) nofun,
            ih (Nat.zero_le 2), before_some]
        · rw [List.append_assoc, readLongBasic_spells (spells_escape hc), ih (Nat.zero_le 2),
            before_some]

end DoubleQuotes

/-! ### Between single quotes -/

/-- A literal text without quotes is read back. -/
theorem readLiteral_append {cs : List Char} (hplain : ∀ c ∈ cs, isPlain c = true)
    (hquote : '\'' ∉ cs) (rest : List Char) :
    readLiteral (cs ++ '\'' :: rest) = some (cs, rest) := by
  induction cs with
  | nil => simp [readLiteral]
  | cons c cs ih =>
    rw [List.forall_mem_cons] at hplain
    rw [List.mem_cons, not_or] at hquote
    rw [List.cons_append, readLiteral, if_pos hplain.1, ih hplain.2 hquote.2, before_some]
    exact fun heq => hquote.1 heq.symm

theorem readLongLiteral_char {c : Char} {rest : List Char} (hplain : isPlain c = true ∨ c = '\n')
    (hquote : c = '\'' → ¬['\'', '\''] <+: rest) :
    readLongLiteral (c :: rest) = before (some c) (readLongLiteral rest) := by
  rw [readLongLiteral.eq_5]
  · simp [hplain]
  · exact fun more hc hrest => hquote hc ⟨_, hrest.symm⟩
  · exact fun more hc hrest => hquote hc ⟨_, hrest.symm⟩
  · exact fun more hc hrest => hquote hc ⟨_, hrest.symm⟩
  · exact fun _ hc _ => ne_return_of_isPlain hplain hc

/-- Of up to five quotes at the end of a long literal text, the last three close it. -/
theorem readLongLiteral_close {rest : List Char} (h : rest.head? ≠ some '\'') {n : Nat}
    (hn : n ≤ 2) : readLongLiteral (List.replicate n '\'' ++ '\'' :: '\'' :: '\'' :: rest) =
      some (List.replicate n '\'', rest) := by
  have hclose : readLongLiteral ('\'' :: '\'' :: '\'' :: rest) = some ([], rest) := by
    rw [readLongLiteral.eq_3] <;> rintro _ rfl <;> exact h rfl
  have hone : readLongLiteral ('\'' :: '\'' :: '\'' :: '\'' :: rest) = some (['\''], rest) := by
    rw [readLongLiteral.eq_2, hclose, before_some]
    rintro _ rfl
    exact h rfl
  have htwo : readLongLiteral ('\'' :: '\'' :: '\'' :: '\'' :: '\'' :: rest) =
      some (['\'', '\''], rest) := by
    rw [readLongLiteral.eq_2, hone, before_some]
    rintro _ hrest
    exact h (by simp_all)
  match n, hn with
  | 0, _ => exact hclose
  | 1, _ => exact hone
  | 2, _ => exact htwo

/-- A long literal text without three quotes in a row is read back. -/
theorem readLongLiteral_append {cs rest : List Char} (h : rest.head? ≠ some '\'')
    (hplain : ∀ c ∈ cs, isPlain c = true ∨ c = '\n')
    (hquotes : ¬['\'', '\'', '\''] <:+: cs) :
    readLongLiteral (cs ++ '\'' :: '\'' :: '\'' :: rest) = some (cs, rest) := by
  induction cs with
  | nil => exact readLongLiteral_close h (Nat.zero_le 2)
  | cons c cs ih =>
    rw [List.forall_mem_cons] at hplain
    have hread := ih hplain.2 fun hinfix => hquotes (List.infix_cons hinfix)
    by_cases hfew : c = '\'' ∧ (cs = [] ∨ cs = ['\''])
    · obtain ⟨rfl, rfl | rfl⟩ := hfew
      · exact readLongLiteral_close h (n := 1) (by decide)
      · exact readLongLiteral_close h (n := 2) (by decide)
    · rw [List.cons_append, readLongLiteral_char hplain.1, hread, before_some]
      rintro rfl htwo
      -- two quotes follow within the text, which makes three
      match cs with
      | [] => exact hfew ⟨rfl, .inl rfl⟩
      | [d] =>
        rw [List.cons_append, List.cons_prefix_cons] at htwo
        exact hfew ⟨rfl, .inr (by rw [htwo.1])⟩
      | d :: e :: more =>
        rw [List.cons_append, List.cons_prefix_cons, List.cons_append, List.cons_prefix_cons] at htwo
        obtain ⟨rfl, rfl, -⟩ := htwo
        exact hquotes ⟨[], more, rfl⟩

/-! ### The choice of a form -/

theorem le_longestRun (mark : Char) (run best : Nat) (cs : List Char) :
    best ≤ longestRun mark run best cs := by
  induction cs generalizing run best with
  | nil => exact Nat.le_refl _
  | cons c cs ih =>
    rw [longestRun]
    split
    · exact Nat.le_trans (Nat.le_max_left _ _) (ih _ _)
    · exact ih _ _

/-- No run of a mark is longer than the longest. -/
theorem length_le_longestRun {mark : Char} {n : Nat} {cs : List Char}
    (h : List.replicate n mark <:+: cs) : n ≤ longestRun mark 0 0 cs := by
  obtain ⟨front, back, rfl⟩ := h
  -- the marks one by one, then what stands before them
  have hmarks : ∀ (n run best : Nat), run ≤ best →
      run + n ≤ longestRun mark run best (List.replicate n mark ++ back) := by
    intro n
    induction n with
    | zero => exact fun run best h => Nat.le_trans h (le_longestRun mark run best back)
    | succ n ih =>
      intro run best _
      rw [List.replicate_succ, List.cons_append, longestRun, if_pos rfl]
      have hn := ih (run + 1) (max best (run + 1)) (Nat.le_max_right _ _)
      omega
  have hfront : ∀ (run best : Nat), run ≤ best →
      n ≤ longestRun mark run best (front ++ List.replicate n mark ++ back) := by
    induction front with
    | nil => exact fun run best h => Nat.le_trans (Nat.le_add_left n run) (hmarks n run best h)
    | cons c front ih =>
      intro run best h
      rw [List.cons_append, List.cons_append, longestRun]
      split
      · exact ih _ _ (Nat.le_max_right _ _)
      · exact ih _ _ (Nat.zero_le _)
  exact hfront 0 0 (Nat.le_refl 0)

theorem not_mem_of_longestRun {mark : Char} {cs : List Char} (h : longestRun mark 0 0 cs = 0) :
    mark ∉ cs := by
  intro hmem
  obtain ⟨front, back, rfl⟩ := List.append_of_mem hmem
  have hrun : List.replicate 1 mark <:+: front ++ mark :: back := ⟨front, back, by simp⟩
  have hone := length_le_longestRun hrun
  omega

theorem isPlain_of_not_isHidden {c : Char} (h : isHidden c = false) :
    isPlain c = true ∨ c = '\n' := by
  by_cases hbreak : c = '\n'
  · exact .inr hbreak
  · left
    by_cases htab : c = '\t'
    · simp [isPlain, htab]
    · simpa [isHidden, isPlain, hbreak, htab] using h

/-- A form without escapes is only chosen where it shows the text. -/
theorem textForm_literal {cs : List Char} (h : textForm cs = .literal) :
    cs ≠ [] ∧ (∀ c ∈ cs, isPlain c = true) ∧ '\'' ∉ cs := by
  have hform : cs.any isHidden = false ∧ longestRun '\'' 0 0 cs = 0 ∧ '\n' ∉ cs := by
    unfold textForm at h
    grind
  obtain ⟨hhidden, hquotes, hbreak⟩ := hform
  refine ⟨?_, fun c hc => ?_, not_mem_of_longestRun hquotes⟩
  · rintro rfl
    cases h
  · have hc' := isPlain_of_not_isHidden (Bool.eq_false_iff.mpr (List.any_eq_false.mp hhidden c hc))
    exact hc'.resolve_right fun heq => hbreak (heq ▸ hc)

/-- The long literal form is chosen for plain texts without three quotes in a row only. -/
theorem textForm_longLiteral {cs : List Char} (h : textForm cs = .longLiteral) :
    (∀ c ∈ cs, isPlain c = true ∨ c = '\n') ∧ ¬['\'', '\'', '\''] <:+: cs := by
  have hform : cs.any isHidden = false ∧ longestRun '\'' 0 0 cs ≤ 2 := by
    unfold textForm at h
    grind
  obtain ⟨hhidden, hquotes⟩ := hform
  refine ⟨fun c hc => ?_, fun hthree => ?_⟩
  · exact isPlain_of_not_isHidden (Bool.eq_false_iff.mpr (List.any_eq_false.mp hhidden c hc))
  · have hlong := length_le_longestRun (n := 3) hthree
    omega

/-! ### Texts in any form -/

theorem dropBreak_of_ne {c : Char} (hbreak : c ≠ '\n') (hreturn : c ≠ '\r') (cs : List Char) :
    dropBreak (c :: cs) = c :: cs := by
  simp [dropBreak, hbreak, hreturn]

/-- A line break is put before a text of several lines, and it is taken away again. -/
theorem dropBreak_start {cs written : List Char} (hbreak : '\n' ∉ cs → dropBreak written = written) :
    dropBreak ((if cs.contains '\n' then ['\n'] else []) ++ written) = written := by
  by_cases h : '\n' ∈ cs
  · simp [h, dropBreak]
  · simpa [h] using hbreak h

/-- What is written of a line does not start with a line break. -/
theorem dropBreak_escapeAll {cs : List Char} (h : '\n' ∉ cs) (back : List Char) :
    dropBreak (escapeAll true 2 0 cs ++ '"' :: back) = escapeAll true 2 0 cs ++ '"' :: back := by
  cases cs with
  | nil => exact dropBreak_of_ne (by decide) (by decide) _
  | cons c cs =>
    have hc : c ≠ '\n' := fun heq => h (heq ▸ List.mem_cons_self)
    rw [escapeAll]
    by_cases hquote : c = '"'
    · rw [if_pos hquote, if_pos (by decide), hquote]
      exact dropBreak_of_ne (by decide) (by decide) _
    · rw [if_neg hquote, if_neg (fun heq => hc heq.1)]
      have hspells := spells_escape hquote
      generalize escape c = w at hspells
      cases hspells with
      | letter => exact dropBreak_of_ne (by decide) (by decide) _
      | number => exact dropBreak_of_ne (by decide) (by decide) _
      | plain hplain => exact dropBreak_of_ne hc (ne_return_of_isPlain (.inl hplain)) _

section Forms

variable {cs rest : List Char}

/-- A text in basic form is read back. -/
theorem readText_basic (hrest : rest.head? ≠ some '"') (cs : List Char) :
    readText ('"' :: (escapeAll false 0 0 cs ++ '"' :: rest)) = some (cs, rest) := by
  rw [readText.eq_2, readBasic_escapeAll]
  intro more heq
  cases cs with
  | nil =>
    cases heq
    exact hrest rfl
  | cons c cs =>
    obtain ⟨d, w, hw, hd⟩ := exists_escapeAll_cons false (c := c) (.inr (Nat.le_refl 0)) cs
    rw [hw, List.cons_append, List.cons.injEq] at heq
    exact hd heq.1

theorem readText_literal (hcs : cs ≠ []) (hplain : ∀ c ∈ cs, isPlain c = true)
    (hquote : '\'' ∉ cs) (rest : List Char) :
    readText ('\'' :: (cs ++ '\'' :: rest)) = some (cs, rest) := by
  rw [readText.eq_4, readLiteral_append hplain hquote]
  intro more heq
  obtain ⟨c, cs, rfl⟩ := List.exists_cons_of_ne_nil hcs
  rw [List.cons_append, List.cons.injEq] at heq
  exact hquote (heq.1 ▸ List.mem_cons_self)

theorem readText_longBasic (hrest : rest.head? ≠ some '"') (cs : List Char) :
    readText ('"' :: '"' :: '"' :: ((if cs.contains '\n' then ['\n'] else []) ++
      (escapeAll true 2 0 cs ++ '"' :: '"' :: '"' :: rest))) = some (cs, rest) := by
  rw [readText.eq_1, dropBreak_start fun hbreak => dropBreak_escapeAll hbreak _]
  exact readLongBasic_escapeAll hrest (Nat.zero_le 2) cs

theorem readText_longLiteral (hplain : ∀ c ∈ cs, isPlain c = true ∨ c = '\n')
    (hquotes : ¬['\'', '\'', '\''] <:+: cs) (hrest : rest.head? ≠ some '\'') :
    readText ('\'' :: '\'' :: '\'' :: ((if cs.contains '\n' then ['\n'] else []) ++
      (cs ++ '\'' :: '\'' :: '\'' :: rest))) = some (cs, rest) := by
  rw [readText.eq_3, dropBreak_start]
  · exact readLongLiteral_append hrest hplain hquotes
  · intro hbreak
    cases cs with
    | nil => exact dropBreak_of_ne (by decide) (by decide) _
    | cons c cs =>
      have hc : c ≠ '\n' := fun heq => hbreak (heq ▸ List.mem_cons_self)
      exact dropBreak_of_ne hc (ne_return_of_isPlain (hplain c List.mem_cons_self)) _

end Forms

/-- A text comes back from the form in which it is written, unless quotes follow. -/
theorem readText_textChars (s : String) {rest : List Char}
    (hrest : Avoids (fun c => c == '"' || c == '\'') rest) :
    readText (textChars s ++ rest) = some (s.toList, rest) := by
  have hdouble : rest.head? ≠ some '"' := fun h => by simpa using hrest '"' h
  have hsingle : rest.head? ≠ some '\'' := fun h => by simpa using hrest '\'' h
  unfold textChars
  cases hform : textForm s.toList with
  | basic => simpa [hform] using readText_basic hdouble s.toList
  | literal =>
    obtain ⟨hne, hplain, hquote⟩ := textForm_literal hform
    simpa [hform] using readText_literal hne hplain hquote rest
  | longBasic => simpa [hform] using readText_longBasic hdouble s.toList
  | longLiteral =>
    obtain ⟨hplain, hquotes⟩ := textForm_longLiteral hform
    simpa [hform] using readText_longLiteral hplain hquotes hsingle

end PolyLex.Toml
