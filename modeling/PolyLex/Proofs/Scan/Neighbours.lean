import PolyLex.Proofs.Scan.Alone
import PolyLex.Proofs.Scan.LineEnds

/-!
# Neighbouring tokens

A token is the longest that its category finds, so what stands behind it does not go on with it: no
word stands directly behind a word, no digit behind a number, and two operators side by side are not
an operator together. `Piece.Unjoinable` lists what that means for two tokens side by side, and
`scan_neighbours` says that it holds of all of them.

Between two tokens of one line nothing is left out. A token that ends its line has nothing behind it
there, and only white space, comments and strings do (`exists_lines_of_split`).
-/

namespace PolyLex.Scan

open Text

/-! ### Behind the longest opening -/

/-- Nothing that lengthens the longest opening has its property. -/
theorem Longest.not_append {L : List Char → Prop} {w v behind : List Char}
    (h : Longest L (w ++ behind) w) (hv : v <+: behind) (hne : v ≠ []) : ¬ L (w ++ v) := by
  intro hL
  have hle := h.2.2 (w ++ v) ((List.prefix_append_right_inj w).mpr hv) hL
  have hpos := List.length_pos_iff.mpr hne
  rw [List.length_append] at hle
  omega

/-- The longest opening cannot be longer by the next character. -/
theorem Longest.not_concat {L : List Char → Prop} {w cs behind : List Char} {c : Char}
    (h : Longest L (w ++ behind) w) (hv : c :: cs <+: behind) : ¬ L (w ++ [c]) :=
  h.not_append ((List.prefix_append [c] cs).trans hv) (List.cons_ne_nil c [])

/-! ### Words and white space -/

theorem isWordPart_of_isWordStart {p : Profile} {c : Char} (h : p.isWordStart c = true) :
    p.isWordPart c = true := by
  simp only [Profile.isWordStart, Profile.isWordPart, isAlphanumeric, Bool.or_eq_true] at h ⊢
  rcases h with (h | h) | h
  · exact .inl (.inl (.inl h))
  · exact .inl (.inr h)
  · exact .inr h

theorem isWordPart_of_isDigit (p : Profile) {c : Char} (h : isDigit c = true) :
    p.isWordPart c = true := by
  simp only [Profile.isWordPart, isAlphanumeric, isNumeric_of_isDigit h, Bool.or_true, Bool.true_or]

section Words

variable {p : Profile} {w v cs behind : List Char} {c : Char}

theorem isWord_concat (h : p.IsWord w) (hc : p.isWordPart c = true) : p.IsWord (w ++ [c]) := by
  obtain ⟨d, ds, rfl, hstart, hds⟩ := h
  refine ⟨d, ds ++ [c], rfl, hstart, fun e he => ?_⟩
  rcases List.mem_append.mp he with he | he
  · exact hds e he
  · rwa [List.mem_singleton.mp he]

/-- Behind a word stands no character that could go on with it. -/
theorem Longest.isWordPart_eq_false (h : Longest p.IsWord (w ++ behind) w)
    (hv : c :: cs <+: behind) : p.isWordPart c = false := by
  rw [Bool.eq_false_iff]
  exact fun hc => h.not_concat hv (isWord_concat h.2.1 hc)

/-- Behind the longest word there is no word. -/
theorem Longest.not_isWord (h : Longest p.IsWord (w ++ behind) w) (hv : v <+: behind) :
    ¬ p.IsWord v := by
  rintro ⟨c, cs, rfl, hstart, -⟩
  have hpart := h.isWordPart_eq_false hv
  rw [isWordPart_of_isWordStart hstart] at hpart
  cases hpart

/-- A number directly behind a word starts with a point. -/
theorem Longest.head?_number_of_word (h : Longest p.IsWord (w ++ behind) w) (hv : v <+: behind)
    (hnumber : IsNumber v) : v.head? = some '.' := by
  obtain ⟨c, cs, rfl⟩ := List.exists_cons_of_ne_nil hnumber.ne_nil
  rcases hnumber.head with hdigit | rfl
  · have hpart := h.isWordPart_eq_false hv
    rw [isWordPart_of_isDigit p hdigit] at hpart
    cases hpart
  · rfl

theorem Longest.not_isBlankRun (h : Longest IsBlankRun (w ++ behind) w) (hv : v <+: behind) :
    ¬ IsBlankRun v := by
  rintro ⟨hne, hblank⟩
  refine h.not_append hv hne ⟨List.append_ne_nil_of_right_ne_nil w hne, fun d hd => ?_⟩
  rcases List.mem_append.mp hd with hd | hd
  · exact h.2.1.2 d hd
  · exact hblank d hd

end Words

/-! ### Numbers -/

/-- The text starts as hexadecimal numbers do. -/
def IsHexForm (w : List Char) : Prop := ['0', 'x'] <+: w ∨ ['0', 'X'] <+: w

instance (w : List Char) : Decidable (IsHexForm w) := inferInstanceAs (Decidable (_ ∨ _))

namespace IsNumber

variable {w v : List Char} {c : Char}

/-- A number with one more digit is a number. -/
theorem concat (h : IsNumber w) (hc : isDigit c = true) : IsNumber (w ++ [c]) := by
  have hdigits : ∀ {ds : List Char}, (∀ d ∈ ds, isDigit d = true) →
      ∀ d ∈ ds ++ [c], isDigit d = true := by
    intro ds hds d hd
    rcases List.mem_append.mp hd with hd | hd
    · exact hds d hd
    · rwa [List.mem_singleton.mp hd]
  have hne : ∀ ds : List Char, ds ++ [c] ≠ [] := by simp
  cases h with
  | @hex x ds hx _ hds =>
    refine .hex hx (hne ds) fun d hd => ?_
    rcases List.mem_append.mp hd with hd | hd
    · exact hds d hd
    · rw [List.mem_singleton.mp hd, isHexDigit, hc]
      rfl
  | whole _ hds => exact .whole (hne w) (hdigits hds)
  | @decimal ds fs hds_ne hds _ hfs =>
    rw [List.append_assoc]
    exact .decimal hds_ne hds (hne fs) (hdigits hfs)
  | @fraction fs _ hfs => exact .fraction (hne fs) (hdigits hfs)

/-- A number that starts with a point is a fraction. -/
theorem of_point {fs : List Char} (h : IsNumber ('.' :: fs)) :
    fs ≠ [] ∧ ∀ d ∈ fs, isDigit d = true := by
  generalize hw : '.' :: fs = w at h
  cases h with
  | hex => exact absurd (List.cons.inj hw).1 (by decide)
  | whole _ hds =>
    have hpoint := hds '.' (by rw [← hw]; exact List.mem_cons_self)
    rw [isDigit_point] at hpoint
    cases hpoint
  | @decimal ds _ hne hds =>
    obtain ⟨d, ds, rfl⟩ := List.exists_cons_of_ne_nil hne
    have hpoint := hds d List.mem_cons_self
    rw [← (List.cons.inj hw).1, isDigit_point] at hpoint
    cases hpoint
  | fraction hne hfs =>
    obtain ⟨-, rfl⟩ := List.cons.inj hw
    exact ⟨hne, hfs⟩

/-- A fraction lengthens a number, unless that has a point already or is hexadecimal. -/
theorem append_fraction (h : IsNumber w) (hpoint : '.' ∉ w) (hhex : ¬ IsHexForm w) {fs : List Char}
    (hv : IsNumber ('.' :: fs)) : IsNumber (w ++ '.' :: fs) := by
  obtain ⟨hne, hfs⟩ := hv.of_point
  cases h with
  | @hex x ds hx =>
    refine absurd ?_ hhex
    rcases hx with rfl | rfl
    · exact .inl (List.prefix_append _ ds)
    · exact .inr (List.prefix_append _ ds)
  | whole hds_ne hds => exact .decimal hds_ne hds hne hfs
  | decimal => exact absurd (by simp) hpoint
  | fraction => exact absurd List.mem_cons_self hpoint

end IsNumber

section Numbers

variable {w v behind : List Char}

/-- A number directly behind a number starts with a point. -/
theorem Longest.head?_number (h : Longest IsNumber (w ++ behind) w) (hv : v <+: behind)
    (hnumber : IsNumber v) : v.head? = some '.' := by
  obtain ⟨c, cs, rfl⟩ := List.exists_cons_of_ne_nil hnumber.ne_nil
  rcases hnumber.head with hdigit | rfl
  · exact absurd (h.2.1.concat hdigit) (h.not_concat hv)
  · rfl

/-- What such a number stands behind has a point itself or is hexadecimal. -/
theorem Longest.mem_or_isHexForm (h : Longest IsNumber (w ++ behind) w) (hv : v <+: behind)
    (hnumber : IsNumber v) : '.' ∈ w ∨ IsHexForm w := by
  have hhead := h.head?_number hv hnumber
  obtain ⟨c, fs, rfl⟩ := List.exists_cons_of_ne_nil hnumber.ne_nil
  obtain rfl : c = '.' := Option.some.inj hhead
  apply Decidable.byContradiction
  rw [not_or]
  rintro ⟨hpoint, hhex⟩
  exact h.not_append hv (List.cons_ne_nil _ fs)
    (h.2.1.append_fraction hpoint hhex hnumber)

end Numbers

/-! ### From a kind to its category -/

/-- The category whose lexemes have the kind, for the kinds that only one category gives. -/
def Category.ofKind? : Kind → Option Category
  | .keyword | .identifier => some word
  | .number => some number
  | .operator => some operator
  | .punctuation => some punctuation
  | .delimiter => some delimiter
  | .whitespace => some whitespace
  | .comment | .string | .literal | .error | .other _ => none

theorem Category.eq_of_ofKind? {p : Profile} {w : List Char} {category other : Category}
    (h : ofKind? (category.kindOf p w) = some other) : category = other := by
  cases category with
  | word =>
    rw [kindOf] at h
    split at h <;> exact Option.some.inj h
  | quoted =>
    rw [kindOf] at h
    split at h <;> cases h
  | blockComment | lineComment | blockString => cases h
  | number | operator | punctuation | delimiter | whitespace => exact Option.some.inj h

/-- The kind of a winner tells which category takes it. -/
theorem Munch.takes_of_kind {p : Profile} {rest w : List Char} {kind : Kind}
    (h : Munch p rest kind w) (category : Category)
    (hkind : Category.ofKind? kind = some category) : category.Takes p rest w := by
  cases h with
  | lexeme _ _ htakes =>
    rw [← Category.eq_of_ofKind? hkind]
    exact htakes
  | error => cases hkind

/-! ### Two tokens side by side -/

namespace Piece

def IsWord (x : Piece) : Prop := x.kind = .keyword ∨ x.kind = .identifier

/-- The two tokens, one directly behind the other, could not have been one. -/
structure Unjoinable (p : Profile) (t₁ t₂ : Piece) : Prop where
  words : ¬ (t₁.IsWord ∧ t₂.IsWord)
  numberBehindWord : t₁.IsWord → t₂.kind = .number → t₂.lexeme.head? = some '.'
  blanks : t₁.kind = .whitespace → t₂.kind = .whitespace → t₁.lexeme.getLast? = some '\n'
  operators : t₁.kind = .operator → t₂.kind = .operator →
    String.ofList (t₁.lexeme ++ t₂.lexeme) ∉ p.operators
  numbers : t₁.kind = .number → t₂.kind = .number →
    t₂.lexeme.head? = some '.' ∧ ('.' ∈ t₁.lexeme ∨ IsHexForm t₁.lexeme)

variable {x : Piece}

/-- The pieces that are words are of the category of words. -/
theorem IsWord.ofKind? (h : x.IsWord) : Category.ofKind? x.kind = some .word := by
  rcases h with h | h
  · rw [h]
    rfl
  · rw [h]
    rfl

end Piece

/-- What a token and the one behind it are cut from: unless the first ends its line, the second is
cut from what the first leaves. -/
theorem exists_lines_of_split {p : Profile} (hp : p.WellMarked) {source : String}
    {before after : List Piece} {t₁ t₂ : Piece}
    (hsplit : p.pieces source = before ++ t₁ :: t₂ :: after) (hmode₁ : t₁.start.mode = .normal)
    (hmode₂ : t₂.start.mode = .normal) :
    ∃ line behind, Munch p line t₁.kind t₁.lexeme ∧ Munch p behind t₂.kind t₂.lexeme ∧
      (t₁.lexeme.getLast? = some '\n' ∨ line = t₁.lexeme ++ behind) := by
  have hmunch₁ := munch_piece hp hsplit hmode₁
  have hsplit' : p.pieces source = (before ++ [t₁]) ++ t₂ :: after := by simp [hsplit]
  have hmunch₂ := munch_piece hp hsplit' hmode₂
  have hjoined : Piece.joined (before ++ [t₁]) = Piece.joined before ++ t₁.lexeme := by
    simp [Piece.joined]
  rw [hjoined, List.length_append, ← List.drop_drop] at hmunch₂
  generalize source.toList.drop (Piece.joined before).length = left at hmunch₁ hmunch₂
  refine ⟨_, _, hmunch₁, hmunch₂, ?_⟩
  have hprefix := hmunch₁.isPrefix hp
  rcases Nat.lt_or_eq_of_le hprefix.length_le with hlt | heq
  · right
    rw [firstLine_drop hlt]
    have hsame := List.take_append_drop t₁.lexeme.length (firstLine left).1
    rw [← List.prefix_iff_eq_take.mp hprefix] at hsame
    exact hsame.symm
  · left
    have hline := hprefix.eq_of_length heq
    rcases firstLine_cases left with hlast | ⟨hnil, -⟩
    · rw [hline]
      exact hlast
    · -- Nothing is left for the second token.
      rw [hline, drop_length_firstLine, hnil] at hmunch₂
      exact absurd (List.prefix_nil.mp (hmunch₂.isPrefix hp)) hmunch₂.ne_nil

/-- Two winners, the second directly behind the first or on a new line, could not have been one. -/
theorem unjoinable_of_munch {p : Profile} (hp : p.WellMarked) (hin : p.WithinLines) {t₁ t₂ : Piece}
    {line behind : List Char} (h₁ : Munch p line t₁.kind t₁.lexeme)
    (h₂ : Munch p behind t₂.kind t₂.lexeme)
    (hcut : t₁.lexeme.getLast? = some '\n' ∨ line = t₁.lexeme ++ behind) :
    t₁.Unjoinable p t₂ := by
  have hprefix := h₂.isPrefix hp
  -- A first token without line feeds is on one line with the second.
  have hline : NoTerminator t₁.lexeme → line = t₁.lexeme ++ behind := by
    intro hno
    rcases hcut with hlast | hcut
    · exact absurd (List.mem_of_getLast? hlast) hno.not_mem
    · exact hcut
  have hword : t₁.IsWord → Longest p.IsWord (t₁.lexeme ++ behind) t₁.lexeme := by
    intro hkind
    have htakes : Longest p.IsWord line t₁.lexeme := h₁.takes_of_kind .word hkind.ofKind?
    rwa [hline (Category.noTerminator_of_isWord hin htakes.2.1)] at htakes
  have hnumber : t₂.kind = .number → IsNumber t₂.lexeme := by
    intro hkind
    exact (h₂.takes_of_kind .number (by rw [hkind]; rfl)).2.1
  constructor
  · rintro ⟨hkind₁, hkind₂⟩
    exact (hword hkind₁).not_isWord hprefix (h₂.takes_of_kind .word hkind₂.ofKind?).2.1
  · intro hkind₁ hkind₂
    exact (hword hkind₁).head?_number_of_word hprefix (hnumber hkind₂)
  · intro hkind₁ hkind₂
    rcases hcut with hlast | hcut
    · exact hlast
    · have htakes : Longest IsBlankRun line t₁.lexeme :=
        h₁.takes_of_kind .whitespace (by rw [hkind₁]; rfl)
      rw [hcut] at htakes
      exact absurd (h₂.takes_of_kind .whitespace (by rw [hkind₂]; rfl)).2.1
        (htakes.not_isBlankRun hprefix)
  · intro hkind₁ _ hmem
    have htakes : Longest p.IsOperator line t₁.lexeme :=
      h₁.takes_of_kind .operator (by rw [hkind₁]; rfl)
    have hno : NoTerminator t₁.lexeme := by
      obtain ⟨op, hop, heq⟩ := htakes.2.1
      rw [heq]
      exact (hin.operators op hop).2
    rw [hline hno] at htakes
    exact htakes.not_append hprefix h₂.ne_nil ⟨_, hmem, String.toList_ofList.symm⟩
  · intro hkind₁ hkind₂
    have htakes : Longest IsNumber line t₁.lexeme := h₁.takes_of_kind .number (by rw [hkind₁]; rfl)
    rw [hline (Category.noTerminator_of_isNumber htakes.2.1)] at htakes
    exact ⟨htakes.head?_number hprefix (hnumber hkind₂),
      htakes.mem_or_isHexForm hprefix (hnumber hkind₂)⟩

/-! ### The tokens of a source -/

/-- No two neighbouring tokens could have been one. -/
theorem scan_neighbours (l : Language) (source : String) (before after : List Piece)
    (t₁ t₂ : Piece) (hsplit : l.profile.pieces source = before ++ t₁ :: t₂ :: after)
    (hmode₁ : t₁.start.mode = .normal) (hmode₂ : t₂.start.mode = .normal) :
    (l.profile.scan source).tokens = (before ++ t₁ :: t₂ :: after).map Piece.token ∧
    t₁.Unjoinable l.profile t₂ := by
  obtain ⟨line, behind, h₁, h₂, hcut⟩ :=
    exists_lines_of_split l.wellMarked_profile hsplit hmode₁ hmode₂
  exact ⟨by rw [Profile.tokens_scan, hsplit],
    unjoinable_of_munch l.wellMarked_profile l.withinLines_profile h₁ h₂ hcut⟩

/-- A second point starts a second number. -/
theorem scan_neighbours_points :
    Language.c.profile.pieces "1.2.3" =
      [] ++ ⟨{}, .number, "1.2".toList⟩ :: ⟨{ column := 4 }, .number, ".3".toList⟩ :: [] ∧
    Piece.Unjoinable Language.c.profile ⟨{}, .number, "1.2".toList⟩
      ⟨{ column := 4 }, .number, ".3".toList⟩ := by
  have hcut : Cursor.cutSteps Language.c.profile 2 {} "1.2.3".toList =
      some ([] ++ ⟨{}, .number, "1.2".toList⟩ :: ⟨{ column := 4 }, .number, ".3".toList⟩ :: []) := by
    decide +kernel
  have hpieces := Cursor.cutText_of_cutSteps (Cursor.fits_start Language.c.profile) hcut
  exact ⟨hpieces, (scan_neighbours .c _ _ _ _ _ hpieces rfl rfl).2⟩

end PolyLex.Scan
