import PolyLex.Proofs.Scan.Bytes
import PolyLex.Proofs.Scan.Openings
import PolyLex.Proofs.Text.Classes

/-!
# The order of the categories does not matter

Of equally long claims the first category would win, but in the five languages no two categories
ever claim the same text: `eq_of_takes`. So the winner is the same whatever the order in which the
categories are asked (`winner_perm`).

Two categories that take the same text start on the same character. Characters are sorted by what
may start on them (`Profile.start`); that leaves the nine pairs of `Category.rivals`. In four of
them one is a construct, and where its opening marker stands nothing else takes as much as the
marker. The other five are told apart by the tables (`Profile.SetApart`).
-/

namespace PolyLex

open Text

/-! ### What starts on which character -/

namespace Scan

/-- The sorts of characters that lexemes start on. -/
inductive Start where
  | digit
  | blank
  | letter
  | point
  | quote
  | bracket
  | symbol
  deriving Repr, DecidableEq

/-- The sorts of characters that a category starts on. -/
def Category.starts : Category → List Start
  | blockComment | lineComment => [.symbol]
  | blockString | quoted => [.quote]
  | number => [.digit, .point]
  | word => [.letter]
  | operator | punctuation => [.point, .symbol]
  | delimiter => [.bracket]
  | whitespace => [.blank]

/-- The categories that start on the same sort of characters, in the order of `Category.all`. -/
def Category.rivals : List (Category × Category) :=
  [(blockComment, lineComment), (blockComment, operator), (blockComment, punctuation),
   (blockString, quoted),
   (lineComment, operator), (lineComment, punctuation), (operator, punctuation),
   (number, operator), (number, punctuation)]

end Scan

namespace Profile

/-- The sort that a character belongs to. -/
def start (p : Profile) (c : Char) : Scan.Start :=
  if isDigit c then .digit
  else if isBlank c then .blank
  else if p.isWordStart c then .letter
  else if c = '.' then .point
  else if c ∈ p.quotes then .quote
  else if c ∈ p.delimiters then .bracket
  else .symbol

/-- The tables of the profile give no text to two categories. -/
structure SetApart (p : Profile) : Prop where
  starts : ∀ category ∈ Scan.Category.all, ∀ v ∈ category.spellings p,
    ∀ start ∈ v.head?.map p.start, start ∈ category.starts
  point : p.isWordStart '.' = false
  extras : ∀ c ∈ p.identifierExtras, isDigit c = false ∧ isBlank c = false
  /-- What a comment to the end of the line starts with starts no operator and no punctuation. -/
  markers : ∀ marker ∈ p.lineComments,
    ∀ v ∈ Scan.Category.operator.spellings p ++ Scan.Category.punctuation.spellings p,
      ¬ marker.toList <+: v
  operators : ∀ v ∈ Scan.Category.punctuation.spellings p,
    v ∉ Scan.Category.operator.spellings p
  digitless : ∀ v ∈ Scan.Category.operator.spellings p ++ Scan.Category.punctuation.spellings p,
    v.any isDigit = false

/-- What it means for categories to be set apart, as a test on the tables of a profile. -/
theorem setApart_iff (p : Profile) : p.SetApart ↔
    (∀ category ∈ Scan.Category.all, ∀ v ∈ category.spellings p,
      ∀ start ∈ v.head?.map p.start, start ∈ category.starts) ∧
    p.isWordStart '.' = false ∧
    (p.identifierExtras.all fun c => isDigit c = false ∧ isBlank c = false) = true ∧
    (∀ marker ∈ p.lineComments,
      ∀ v ∈ Scan.Category.operator.spellings p ++ Scan.Category.punctuation.spellings p,
        ¬ marker.toList <+: v) ∧
    (∀ v ∈ Scan.Category.punctuation.spellings p, v ∉ Scan.Category.operator.spellings p) ∧
    (∀ v ∈ Scan.Category.operator.spellings p ++ Scan.Category.punctuation.spellings p,
      v.any isDigit = false) := by
  simp only [List.all_eq_true, decide_eq_true_eq]
  constructor
  · rintro ⟨h₁, h₂, h₃, h₄, h₅, h₆⟩
    exact ⟨h₁, h₂, h₃, h₄, h₅, h₆⟩
  · rintro ⟨h₁, h₂, h₃, h₄, h₅, h₆⟩
    exact ⟨h₁, h₂, h₃, h₄, h₅, h₆⟩

/-- Characters are checked in their list; there are too many to try them all. -/
instance (p : Profile) : Decidable p.SetApart := decidable_of_iff _ p.setApart_iff.symm

end Profile

/-- The registered profiles set their categories apart. -/
theorem Language.setApart_profile (l : Language) : l.profile.SetApart := by
  cases l <;> decide +kernel

namespace Scan

/-- A number starts with a digit or a point. -/
theorem IsNumber.head {c : Char} {cs : List Char} (h : IsNumber (c :: cs)) :
    isDigit c = true ∨ c = '.' := by
  generalize hw : c :: cs = w at h
  cases h with
  | hex =>
    obtain ⟨rfl, -⟩ := List.cons.inj hw
    exact .inl (by decide)
  | whole _ hds => exact .inl (hds c (by rw [← hw]; exact List.mem_cons_self))
  | @decimal ds fs hne hds =>
    obtain ⟨d, ds, rfl⟩ := List.exists_cons_of_ne_nil hne
    obtain ⟨rfl, -⟩ := List.cons.inj hw
    exact .inl (hds _ List.mem_cons_self)
  | fraction => exact .inr (List.cons.inj hw).1

theorem IsNumber.any_isDigit {w : List Char} (h : IsNumber w) : w.any isDigit = true := by
  rw [List.any_eq_true]
  cases h with
  | hex => exact ⟨'0', List.mem_cons_self, by decide⟩
  | whole hne hds =>
    obtain ⟨d, ds, rfl⟩ := List.exists_cons_of_ne_nil hne
    exact ⟨d, List.mem_cons_self, hds d List.mem_cons_self⟩
  | decimal _ _ hne hfs | fraction hne hfs =>
    obtain ⟨f, fs, rfl⟩ := List.exists_cons_of_ne_nil hne
    exact ⟨f, by simp, hfs f List.mem_cons_self⟩

namespace Category

variable {p : Profile} {rest v w : List Char} {a b category : Category}

/-- A word starts like a word and like nothing else. -/
theorem start_of_isWordStart (hset : p.SetApart) {c : Char} (h : p.isWordStart c = true) :
    p.start c = .letter := by
  have hapart : isDigit c = false ∧ isBlank c = false := by
    rw [Profile.isWordStart, Bool.or_eq_true, Bool.or_eq_true, beq_iff_eq,
      List.contains_iff_mem] at h
    rcases h with (h | rfl) | h
    · constructor
      · rw [Bool.eq_false_iff]
        intro hdigit
        rw [isAlphabetic_of_isDigit hdigit] at h
        cases h
      · rw [Bool.eq_false_iff]
        intro hblank
        rw [isAlphabetic_of_isBlank hblank] at h
        cases h
    · decide
    · exact hset.extras c h
  simp only [Profile.start, hapart.1, hapart.2, h, Bool.false_eq_true, if_false, if_true]

/-- A category starts on the characters of its sorts only. -/
theorem start_mem_starts (hset : p.SetApart) {c : Char} {cs : List Char}
    (h : category.Opens p (c :: cs)) : p.start c ∈ category.starts := by
  cases category with
  | number =>
    rcases h.head with hdigit | rfl
    · rw [Profile.start, if_pos hdigit]
      decide
    · have hstart : p.start '.' = .point := by
        simp [Profile.start, hset.point, isDigit_point, show isBlank '.' = false by decide]
      rw [hstart]
      decide
  | word =>
    obtain ⟨d, ds, heq, hstart, -⟩ := h
    obtain ⟨rfl, -⟩ := List.cons.inj heq
    rw [start_of_isWordStart hset hstart]
    decide
  | whitespace =>
    have hblank : isBlank c = true := h.2 c List.mem_cons_self
    have hdigit : isDigit c = false := by
      rw [Bool.eq_false_iff]
      intro hdigit
      rw [isBlank_of_isDigit hdigit] at hblank
      cases hblank
    simp only [Profile.start, hdigit, hblank, Bool.false_eq_true, if_false, if_true]
    decide
  -- The categories with listed spellings are covered by the tables.
  | blockComment | lineComment | blockString | quoted | operator | punctuation | delimiter =>
    exact hset.starts _ (mem_all _) _ h _ rfl

/-- Words are the only lexemes that start on letters. -/
theorem eq_word_of_mem_starts (h : .letter ∈ category.starts) : category = word := by
  revert h
  cases category <;> decide

/-- Different categories that start on one sort of characters are rivals. -/
theorem rivals_of_mem_starts {start : Start} (ha : start ∈ a.starts) (hb : start ∈ b.starts) :
    a = b ∨ (a, b) ∈ rivals ∨ (b, a) ∈ rivals := by
  have hall : ∀ a ∈ all, ∀ b ∈ all, ∀ start ∈ a.starts, start ∈ b.starts →
      a = b ∨ (a, b) ∈ rivals ∨ (b, a) ∈ rivals := by decide
  exact hall a (mem_all a) b (mem_all b) start ha hb

/-! ### Rivals -/

/-- What a category takes is an opening of the rest. -/
theorem isPrefix_of_takes (hp : p.WellMarked) (h : category.Takes p rest w) : w <+: rest := by
  by_cases hw : w = []
  · rw [hw]
    exact List.nil_prefix
  · obtain ⟨c, -, rfl⟩ := (takes_iff_claim? hp hw).mp h
    exact List.take_prefix _ _

/-- What starts with the opening marker of a construct is taken by the construct alone. -/
theorem eq_category_of_takes (hp : p.WellMarked) {c : Construct} (hapart : c.StandsApart p)
    (hlead : c.lead <+: w) (h : category.Takes p rest w) : category = c.category := by
  apply Decidable.byContradiction
  intro hne
  have hw : w ≠ [] := by
    rintro rfl
    have hpos := hapart.one_lt_length
    rw [List.prefix_nil.mp hlead] at hpos
    exact Nat.not_lt_zero 1 hpos
  obtain ⟨body, hbody⟩ := hlead.trans (isPrefix_of_takes hp h)
  obtain ⟨d, hd, hclaim⟩ := (takes_iff_claim? hp hw).mp h
  rw [← hbody] at hd
  have hlt := Construct.length_lt_of_ne hp hapart hne hd
  have hle := hlead.length_le
  rw [hclaim, List.length_take] at hle
  omega

/-- What a construct takes begins with its mark. -/
theorem exists_construct_of_takes (h : category.Takes p rest w)
    (hcategory : category = blockComment ∨ category = blockString) :
    ∃ c ∈ p.constructs, c.category = category ∧ c.lead <+: w := by
  rcases hcategory with rfl | rfl
  · obtain ⟨marks, hmarks, hspans⟩ := h
    exact ⟨_, Construct.mem_constructs_of_blockComment hmarks, rfl, hspans.lead_isPrefix⟩
  · obtain ⟨delimiter, hfirst, hspans⟩ := h
    exact ⟨_, Construct.mem_constructs_of_blockStrings hfirst.mem, rfl, hspans.lead_isPrefix⟩

/-- A table of operators or of punctuation holds what its category takes. -/
theorem mem_spellings_of_takes (h : category.Takes p rest w)
    (hcategory : category = operator ∨ category = punctuation) :
    w ∈ operator.spellings p ++ punctuation.spellings p := by
  rcases hcategory with rfl | rfl
  · exact List.mem_append_left _ (mem_spellings_operator.mpr h.2.1)
  · exact List.mem_append_right _ (mem_spellings_punctuation.mpr h.2.1)

/-- A comment is not taken for an operator or for punctuation. -/
theorem not_takes_of_lineComment (hset : p.SetApart) (hin : p.WithinLines)
    (ha : lineComment.Takes p rest w)
    (hw : w ∈ operator.spellings p ++ punctuation.spellings p) : False := by
  obtain ⟨v, hv, hprefix, -⟩ := exists_opens_of_takes hin ha
  obtain ⟨marker, hmarker, rfl⟩ := List.mem_map.mp hv
  exact hset.markers marker hmarker w hw hprefix

/-- A number is not taken for an operator or for punctuation. -/
theorem not_takes_of_number (hset : p.SetApart) (ha : number.Takes p rest w)
    (hw : w ∈ operator.spellings p ++ punctuation.spellings p) : False := by
  have hdigit := ha.2.1.any_isDigit
  rw [hset.digitless w hw] at hdigit
  cases hdigit

/-- Rivals never take the same text. -/
theorem not_takes_of_rivals (l : Language) (hab : (a, b) ∈ rivals)
    (ha : a.Takes l.profile rest w) (hb : b.Takes l.profile rest w) : False := by
  have hset := l.setApart_profile
  have hin := l.withinLines_profile
  -- A construct is alone where its marker stands; the tables tell the other pairs apart.
  have hconstruct : a = blockComment ∨ a = blockString → a = b := by
    intro hcategory
    obtain ⟨c, hc, rfl, hlead⟩ := exists_construct_of_takes ha hcategory
    exact (eq_category_of_takes l.wellMarked_profile (standsApart_constructs l c hc) hlead hb).symm
  simp only [rivals, List.mem_cons, Prod.mk.injEq, List.not_mem_nil, or_false] at hab
  rcases hab with ⟨rfl, rfl⟩ | ⟨rfl, rfl⟩ | ⟨rfl, rfl⟩ | ⟨rfl, rfl⟩ | ⟨rfl, rfl⟩ | ⟨rfl, rfl⟩ |
    ⟨rfl, rfl⟩ | ⟨rfl, rfl⟩ | ⟨rfl, rfl⟩
  · cases hconstruct (.inl rfl)
  · cases hconstruct (.inl rfl)
  · cases hconstruct (.inl rfl)
  · cases hconstruct (.inr rfl)
  · exact not_takes_of_lineComment hset hin ha (mem_spellings_of_takes hb (.inl rfl))
  · exact not_takes_of_lineComment hset hin ha (mem_spellings_of_takes hb (.inr rfl))
  · exact hset.operators w (mem_spellings_punctuation.mpr hb.2.1)
      (mem_spellings_operator.mpr ha.2.1)
  · exact not_takes_of_number hset ha (mem_spellings_of_takes hb (.inl rfl))
  · exact not_takes_of_number hset ha (mem_spellings_of_takes hb (.inr rfl))

/-- No two categories take the same text. -/
theorem eq_of_takes (l : Language) (hw : w ≠ []) (ha : a.Takes l.profile rest w)
    (hb : b.Takes l.profile rest w) : a = b := by
  obtain ⟨c, cs, rfl⟩ := List.exists_cons_of_ne_nil hw
  -- Whatever takes the text starts on the sort of its first character.
  have hstart : ∀ {category : Category}, category.Takes l.profile rest (c :: cs) →
      l.profile.start c ∈ category.starts := by
    intro category h
    obtain ⟨v, hv, hprefix, -⟩ := exists_opens_of_takes l.withinLines_profile h
    obtain ⟨d, ds, rfl⟩ := List.exists_cons_of_ne_nil
      (opens_ne_nil l.wellMarked_profile l.withinLines_profile hv)
    obtain ⟨rfl, -⟩ := List.cons_prefix_cons.mp hprefix
    exact start_mem_starts l.setApart_profile hv
  rcases rivals_of_mem_starts (hstart ha) (hstart hb) with heq | hab | hba
  · exact heq
  · exact (not_takes_of_rivals l hab ha hb).elim
  · exact (not_takes_of_rivals l hba hb ha).elim

end Category

/-! ### The winner -/

/-- The category claims something on the text, and none claims more. -/
def Category.Leads (p : Profile) (rest : List Char) (category : Category) : Prop :=
  ∃ c, category.claim? p rest = some c ∧ 0 < c.length ∧
    ∀ (other : Category) (d : Claim), other.claim? p rest = some d → d.length ≤ c.length

/-- Only one category leads. -/
theorem Category.eq_of_leads (l : Language) {rest : List Char} {a b : Category}
    (ha : a.Leads l.profile rest) (hb : b.Leads l.profile rest) : a = b := by
  obtain ⟨c, hc, hpos, hmax⟩ := ha
  obtain ⟨d, hd, -, hmax'⟩ := hb
  -- Claims of one length are one text, and no text is taken by two categories.
  have hlen : d.length = c.length := Nat.le_antisymm (hmax b d hd) (hmax' a c hc)
  have hle := (sound_claim? hc).length_le
  have hw : rest.take c.length ≠ [] := by
    rw [← List.length_pos_iff, List.length_take]
    omega
  have hp := l.wellMarked_profile
  exact Category.eq_of_takes l hw ((takes_iff_claim? hp hw).mpr ⟨c, hc, rfl⟩)
    ((takes_iff_claim? hp hw).mpr ⟨d, hd, by rw [hlen]⟩)

variable {p : Profile} {rest : List Char} {categories categories' : List Category}

/-- Among all categories, in whatever order, the winner is a category that leads. -/
theorem exists_leads_of_longestClaim? (hall : ∀ category, category ∈ categories) {c : Claim}
    (h : longestClaim? categories p rest = some c) :
    ∃ category : Category, category.claim? p rest = some c ∧ category.Leads p rest := by
  obtain ⟨-, category, -, -, hc, -⟩ := exists_of_longestClaim? h
  refine ⟨category, hc, c, hc, length_pos_of_longestClaim? h, fun other d hd => ?_⟩
  have hle := length_le_reach (hall other) hd
  rwa [h] at hle

/-- Where nothing wins in one order, nothing wins in another. -/
theorem longestClaim?_eq_none (hall : ∀ category, category ∈ categories)
    (h : longestClaim? categories p rest = none) : longestClaim? categories' p rest = none := by
  cases hwin : longestClaim? categories' p rest with
  | none => rfl
  | some c =>
    obtain ⟨-, category, -, -, hc, -⟩ := exists_of_longestClaim? hwin
    have hle := length_le_reach (hall category) hc
    rw [h] at hle
    exact absurd (length_pos_of_longestClaim? hwin) (Nat.not_lt.mpr hle)

/-- In the five languages the order of the categories never matters: on any text at most one
category attains the longest claim, so the same claim wins for every permutation of the categories,
whether lengths are counted in characters or in bytes. -/
theorem winner_perm (l : Language) (rest : List Char) :
    (∀ a b : Category, a.Leads l.profile rest → b.Leads l.profile rest → a = b) ∧
    ∀ categories : List Category, categories.Perm Category.all →
      longestClaim? categories l.profile rest = longestClaim? Category.all l.profile rest ∧
      Bytes.longestClaim? l.profile rest none categories =
        .ok ((longestClaim? Category.all l.profile rest).map (Bytes.inBytes rest)) := by
  refine ⟨fun a b => Category.eq_of_leads l, fun categories hperm => ?_⟩
  have hall : ∀ category, category ∈ categories :=
    fun category => hperm.mem_iff.mpr category.mem_all
  have hsame : longestClaim? categories l.profile rest =
      longestClaim? Category.all l.profile rest := by
    -- In either order the winner leads, and there is one leader at most.
    cases hwin : longestClaim? Category.all l.profile rest with
    | none => exact longestClaim?_eq_none Category.mem_all hwin
    | some c =>
      cases hwin' : longestClaim? categories l.profile rest with
      | none =>
        rw [longestClaim?_eq_none hall hwin'] at hwin
        cases hwin
      | some d =>
        obtain ⟨a, hc, ha⟩ := exists_leads_of_longestClaim? Category.mem_all hwin
        obtain ⟨b, hd, hb⟩ := exists_leads_of_longestClaim? hall hwin'
        rw [← Category.eq_of_leads l ha hb, hc] at hd
        exact hd.symm
  have hnone : Within rest none := fun _ hc => by cases hc
  have hbytes := Bytes.longestClaim?_eq l.wellMarked_profile.quotesInLine rest categories hnone
  rw [← hsame]
  exact ⟨rfl, hbytes⟩

/-- Three quotes open a Python string that may span lines, and not an empty literal before another
one, also if literals are asked first. -/
theorem winner_perm_quotes :
    Category.blockString.Leads Language.python.profile "'''a'''".toList ∧
    ¬ Category.quoted.Leads Language.python.profile "'''a'''".toList ∧
    Category.all.reverse.Perm Category.all ∧
    longestClaim? Category.all.reverse Language.python.profile "'''a'''".toList =
      some { kind := .string, length := 7 } := by
  have hwin : longestClaim? Category.all Language.python.profile "'''a'''".toList =
      some { kind := .string, length := 7 } := by decide +kernel
  have hperm : Category.all.reverse.Perm Category.all := List.reverse_perm _
  have horder := winner_perm .python "'''a'''".toList
  have hleads : Category.blockString.Leads Language.python.profile "'''a'''".toList := by
    refine ⟨{ kind := .string, length := 7 }, by decide +kernel, by decide, fun other d hd => ?_⟩
    have hle := length_le_reach other.mem_all hd
    rwa [hwin] at hle
  refine ⟨hleads, fun hquoted => ?_, hperm, ((horder.2 _ hperm).1).trans hwin⟩
  cases horder.1 _ _ hleads hquoted

end Scan

end PolyLex
