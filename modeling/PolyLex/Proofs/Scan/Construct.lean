import PolyLex.Proofs.Scan.Rule

/-!
# Constructs that may span lines

The block comment of a profile and its block strings have the same shape: an opening marker, a
close marker, and a mode that lasts while they are open. `Construct` is that shape.

A construct whose opening marker nothing else starts with (`Construct.StandsApart`) wins wherever
the marker stands (`claimAt_construct`). All constructs of the five languages are of this sort.
-/

namespace PolyLex

open Text

namespace Scan

/-- A construct takes its opening marker at least. -/
theorem Category.length_lead_le_openConstruct (kind : Kind) (escapes : Bool)
    (lead close body : List Char) (mode : Mode) :
    lead.length ≤ (openConstruct kind escapes lead close (lead ++ body) body mode).length := by
  rw [openConstruct]
  split
  · exact Nat.le_add_right _ _
  · show _ ≤ (lead ++ body).length
    rw [List.length_append]
    exact Nat.le_add_right _ _

/-- A construct that may span lines. -/
structure Construct where
  category : Category
  kind : Kind
  escapes : Bool
  lead : List Char
  close : List Char
  /-- What the scanner is in the middle of while the construct is open. -/
  mode : Mode
  deriving Repr, DecidableEq

namespace Construct

def ofMarks (marks : String × String) : Construct where
  category := .blockComment
  kind := .comment
  escapes := false
  lead := marks.1.toList
  close := marks.2.toList
  mode := .blockComment

def ofDelimiter (delimiter : String) : Construct where
  category := .blockString
  kind := .string
  escapes := true
  lead := delimiter.toList
  close := delimiter.toList
  mode := .blockString delimiter

end Construct

end Scan

/-- The constructs of a profile that may span lines. -/
def Profile.constructs (p : Profile) : List Scan.Construct :=
  p.blockComment.toList.map .ofMarks ++ p.blockStrings.map .ofDelimiter

namespace Scan

/-- One of the two texts starts with the other. -/
def Clash (v w : List Char) : Prop := v <+: w ∨ w <+: v

instance (v w : List Char) : Decidable (Clash v w) := inferInstanceAs (Decidable (_ ∨ _))

/-- The openings of one text clash. -/
theorem clash_of_isPrefix {v w text : List Char} (hv : v <+: text) (hw : w <+: text) : Clash v w :=
  List.prefix_or_prefix_of_prefix hv hw

namespace Construct

/-- Where the opening marker stands, every other category claims less than the marker. -/
structure StandsApart (p : Profile) (c : Construct) : Prop where
  one_lt_length : 1 < c.lead.length
  lead_inLine : ∀ d ∈ c.lead, d ≠ '\n' ∧ d ≠ '\r'
  close_inLine : '\n' ∉ c.close
  lineComments : ∀ marker ∈ p.lineComments, ¬ Clash marker.toList c.lead
  constructs : ∀ other ∈ p.constructs, other ≠ c → ¬ Clash other.lead c.lead
  operators : ∀ op ∈ p.operators, ¬ c.lead <+: op.toList
  head : ∀ d ∈ c.lead.head?,
    isDigit d = false ∧ d ≠ '.' ∧ p.isWordStart d = false ∧ isBlank d = false
  /-- A literal that starts with the marker ends within it. -/
  quote : ∀ d ∈ c.lead.head?, d ∈ p.quotes →
    (closeEnd? true [d] c.lead.tail).any (· + 1 < c.lead.length) = true

/-- Whether a construct stands apart can be computed from the tables of the profile. -/
theorem standsApart_iff (p : Profile) (c : Construct) : c.StandsApart p ↔
    1 < c.lead.length ∧ (c.lead.all fun d => d ≠ '\n' ∧ d ≠ '\r') ∧ '\n' ∉ c.close ∧
      (∀ marker ∈ p.lineComments, ¬ Clash marker.toList c.lead) ∧
      (∀ other ∈ p.constructs, other ≠ c → ¬ Clash other.lead c.lead) ∧
      (∀ op ∈ p.operators, ¬ c.lead <+: op.toList) ∧
      (c.lead.head?.all fun d =>
        isDigit d = false ∧ d ≠ '.' ∧ p.isWordStart d = false ∧ isBlank d = false) ∧
      c.lead.head?.all fun d => d ∈ p.quotes →
        (closeEnd? true [d] c.lead.tail).any (· + 1 < c.lead.length) = true := by
  simp only [List.all_eq_true, Option.all_eq_true, decide_eq_true_eq]
  constructor
  · rintro ⟨h₁, h₂, h₃, h₄, h₅, h₆, h₇, h₈⟩
    exact ⟨h₁, h₂, h₃, h₄, h₅, h₆, h₇, h₈⟩
  · rintro ⟨h₁, h₂, h₃, h₄, h₅, h₆, h₇, h₈⟩
    exact ⟨h₁, h₂, h₃, h₄, h₅, h₆, h₇, h₈⟩

/-- Characters are checked in their list; there are too many to try them all. -/
instance (p : Profile) (c : Construct) : Decidable (c.StandsApart p) :=
  decidable_of_iff _ (standsApart_iff p c).symm

end Construct

/-- Every construct of a registered profile stands apart from all that competes with it. -/
theorem standsApart_constructs (l : Language) :
    ∀ c ∈ l.profile.constructs, c.StandsApart l.profile := by
  cases l <;> decide +kernel

namespace Construct

variable {p : Profile} {c : Construct} {body : List Char}

theorem mem_constructs_of_blockComment {marks : String × String} (h : p.blockComment = some marks) :
    ofMarks marks ∈ p.constructs := by
  rw [Profile.constructs, h]
  exact List.mem_append_left _ List.mem_cons_self

theorem mem_constructs_of_blockStrings {delimiter : String} (h : delimiter ∈ p.blockStrings) :
    ofDelimiter delimiter ∈ p.constructs :=
  List.mem_append_right _ (List.mem_map_of_mem h)

/-- The constructs of a profile are its block comment and its block strings. -/
theorem mem_constructs_iff : c ∈ p.constructs ↔
    (∃ marks ∈ p.blockComment, c = ofMarks marks) ∨
      ∃ delimiter ∈ p.blockStrings, c = ofDelimiter delimiter := by
  simp only [Profile.constructs, List.mem_append, List.mem_map, Option.mem_toList, Option.mem_def,
    eq_comm]

/-- The close marker can be looked for. -/
theorem searchable (hp : p.WellMarked) (hc : c ∈ p.constructs) :
    Searchable c.escapes c.close := by
  rcases mem_constructs_iff.mp hc with ⟨marks, hmarks, rfl⟩ | ⟨delimiter, hdelimiter, rfl⟩
  · exact ⟨toList_ne_nil (hp.blockComment marks hmarks).2, nofun⟩
  · obtain ⟨hne, hhead⟩ := hp.blockStrings delimiter hdelimiter
    exact ⟨toList_ne_nil hne, fun _ => hhead⟩

/-- What the construct claims where its opening marker is followed by a text. -/
def claim (c : Construct) (body : List Char) : Claim :=
  Category.openConstruct c.kind c.escapes c.lead c.close (c.lead ++ body) body c.mode

/-- A construct takes its opening mark at least. -/
theorem length_lead_le_claim (c : Construct) (body : List Char) :
    c.lead.length ≤ (c.claim body).length :=
  Category.length_lead_le_openConstruct ..

/-- The only construct whose opening marker starts the text is this one. -/
theorem eq_of_isPrefix (h : c.StandsApart p) {other : Construct} (hother : other ∈ p.constructs)
    (hstarts : other.lead <+: c.lead ++ body) : other = c := by
  apply Decidable.byContradiction
  intro hne
  exact h.constructs other hother hne (clash_of_isPrefix hstarts (List.prefix_append _ _))

/-- Where its opening mark stands, a construct is claimed by its own category. -/
theorem claim?_category (h : c.StandsApart p) (hc : c ∈ p.constructs) :
    c.category.claim? p (c.lead ++ body) = some (c.claim body) := by
  rcases mem_constructs_iff.mp hc with ⟨marks, hmarks, rfl⟩ | ⟨delimiter, hdelimiter, rfl⟩
  · exact Category.blockCommentClaim?_eq_some_iff.mpr ⟨marks, hmarks, body, rfl, rfl⟩
  · have hstarts : startsWith delimiter.toList (delimiter.toList ++ body) = true :=
      startsWith_iff.mpr (List.prefix_append _ _)
    refine Category.blockStringClaim?_eq_some_iff.mpr ⟨delimiter, ?_, body, rfl, rfl⟩
    -- A delimiter that is listed before does not start the text, since it would clash.
    cases hfound : p.blockStrings.find?
        (fun d => startsWith d.toList (delimiter.toList ++ body)) with
    | none => exact absurd hstarts (List.find?_eq_none.mp hfound delimiter hdelimiter)
    | some found =>
      have hstarts : startsWith found.toList (delimiter.toList ++ body) = true := by
        simpa using List.find?_some hfound
      have hmem := mem_constructs_of_blockStrings (List.mem_of_find?_eq_some hfound)
      have heq := eq_of_isPrefix h hmem (startsWith_iff.mp hstarts)
      have hmode := congrArg Construct.mode heq
      rw [ofDelimiter, ofDelimiter, Mode.blockString.injEq] at hmode
      rw [hmode] at hfound
      exact hfound

/-! ### The other categories -/

/-- An opening mark without line ends belongs to the content of its line. -/
theorem content_append {lead : List Char} (h : ∀ d ∈ lead, d ≠ '\n' ∧ d ≠ '\r')
    (body : List Char) : content (lead ++ body) = lead ++ content body := by
  induction lead with
  | nil => rfl
  | cons d lead ih =>
    obtain ⟨hn, hr⟩ := h d List.mem_cons_self
    rw [List.cons_append, content_cons_of_ne hn hr, ih fun e he => h e (List.mem_cons_of_mem _ he)]
    rfl

/-- A single character is shorter than the opening mark of a construct. -/
theorem length_lt_of_singleClaim? (h : c.StandsApart p) {kind : Kind} {table rest : List Char}
    {d : Claim} (hd : Category.singleClaim? kind table rest = some d) :
    d.length < c.lead.length := by
  obtain ⟨-, -, -, -, rfl⟩ := Category.singleClaim?_eq_some_iff.mp hd
  exact h.one_lt_length

/-- A literal that starts at the marker is closed within the marker. -/
theorem length_lt_of_quotedClaim? (hp : p.WellMarked) (h : c.StandsApart p) {d : Claim}
    (hd : Category.quotedClaim? p (c.lead ++ body) = some d) : d.length < c.lead.length := by
  obtain ⟨quote, kind, hhead, hkind⟩ := Category.exists_of_quotedClaim? hd
  have hquote := Category.mem_of_quoteKind? hkind
  have hpos := h.one_lt_length
  cases hlead : c.lead with
  | nil =>
    rw [hlead] at hpos
    exact absurd hpos (Nat.not_lt_zero 1)
  | cons e es =>
    rw [hlead] at hhead
    cases hhead
    have hends := h.quote quote (by rw [hlead]; rfl) hquote
    rw [hlead, List.tail_cons, Option.any_eq_true] at hends
    obtain ⟨n, hn, hlt⟩ := hends
    have hsearch : Searchable true [quote] := by
      refine ⟨List.cons_ne_nil _ _, fun _ hback => ?_⟩
      exact hp.quotesUnescaped quote hquote (Option.some.inj hback)
    obtain ⟨i, hi, rfl⟩ := (closeEnd?_eq_some_iff hsearch).mp hn
    -- The quote closes within the opening mark, whatever follows the mark.
    have hmore : closeEnd? true [quote] (es ++ content body) = some (i + [quote].length) :=
      (closeEnd?_eq_some_iff hsearch).mpr ⟨i, hi.append hsearch.1 _, rfl⟩
    have hline : content (c.lead ++ body) = quote :: (es ++ content body) := by
      rw [content_append h.lead_inLine, hlead]
      rfl
    rw [Category.quotedClaim?_eq_openConstruct hkind hline, Category.openConstruct, hmore] at hd
    cases hd
    have hlt := of_decide_eq_true hlt
    show [quote].length + (i + [quote].length) < (quote :: es).length
    rw [List.length_singleton] at hlt ⊢
    omega

/-- At the opening mark of a construct, every operator is shorter than the mark. -/
theorem length_lt_of_operatorClaim? (h : c.StandsApart p) {d : Claim}
    (hd : Category.operatorClaim? p (c.lead ++ body) = some d) : d.length < c.lead.length := by
  obtain ⟨op, hop, rfl⟩ := Category.operatorClaim?_eq_some_iff.mp hd
  have hstarts : startsWith op.toList (c.lead ++ body) = true := by
    simpa using List.find?_some hop
  have hno := h.operators op (List.mem_of_find?_eq_some hop)
  show op.length < c.lead.length
  rw [← String.length_toList]
  apply Nat.lt_of_not_le
  intro hle
  exact hno (List.prefix_of_prefix_length_le (List.prefix_append _ _) (startsWith_iff.mp hstarts)
    hle)

/-- The other categories claim less than the opening marker. -/
theorem length_lt_of_ne (hp : p.WellMarked) (h : c.StandsApart p) {category : Category}
    (hne : category ≠ c.category) {d : Claim}
    (hd : category.claim? p (c.lead ++ body) = some d) : d.length < c.lead.length := by
  have hpos := h.one_lt_length
  obtain ⟨e, es, hlead⟩ : ∃ e es, c.lead = e :: es :=
    List.exists_cons_of_length_pos (Nat.zero_lt_of_lt hpos)
  obtain ⟨hdigit, hpoint, hword, hblank⟩ := h.head e (by rw [hlead]; rfl)
  cases category with
  | blockComment =>
    obtain ⟨marks, hmarks, rest, hrest, -⟩ := Category.blockCommentClaim?_eq_some_iff.mp hd
    have heq := eq_of_isPrefix h (mem_constructs_of_blockComment hmarks) ⟨rest, hrest.symm⟩
    exact absurd (congrArg Construct.category heq) hne
  | lineComment =>
    obtain ⟨⟨marker, hmarker, hstarts⟩, -⟩ := Category.lineCommentClaim?_eq_some_iff.mp hd
    exact absurd (clash_of_isPrefix hstarts (List.prefix_append _ _))
      (h.lineComments marker hmarker)
  | blockString =>
    obtain ⟨delimiter, hfind, rest, hrest, -⟩ := Category.blockStringClaim?_eq_some_iff.mp hd
    have hmem := mem_constructs_of_blockStrings (List.mem_of_find?_eq_some hfind)
    have heq := eq_of_isPrefix h hmem ⟨rest, hrest.symm⟩
    exact absurd (congrArg Construct.category heq) hne
  | quoted => exact length_lt_of_quotedClaim? hp h hd
  -- No opening mark begins with a digit or a point.
  | number =>
    obtain ⟨hne, -⟩ := Category.numberClaim?_eq_some_iff.mp hd
    rw [hlead, List.cons_append] at hne
    exact absurd (numberLength_eq_zero hdigit hpoint _) hne
  -- No opening mark begins like a word.
  | word =>
    obtain ⟨f, fs, htext, hstart, -⟩ := Category.wordClaim?_eq_some_iff.mp hd
    rw [hlead, List.cons_append, List.cons.injEq] at htext
    rw [← htext.1, hword] at hstart
    cases hstart
  | operator => exact length_lt_of_operatorClaim? h hd
  | punctuation => exact length_lt_of_singleClaim? h hd
  | delimiter => exact length_lt_of_singleClaim? h hd
  | whitespace =>
    cases hd
    show Category.runLength isBlank (c.lead ++ body) < c.lead.length
    rw [hlead, List.cons_append, runLength_cons_of_neg hblank]
    exact Nat.succ_pos _

/-- The construct wins wherever its opening marker stands. -/
theorem claimAt_construct (hp : p.WellMarked) (h : c.StandsApart p) (hc : c ∈ p.constructs)
    (body : List Char) : claimAt p (c.lead ++ body) = c.claim body := by
  have hown : _ = some (c.claim body) := claim?_category h hc
  have hle := length_le_reach c.category.mem_all hown
  have hlead := length_lead_le_claim c body
  rw [claimAt]
  cases hwin : longestClaim? Category.all p (c.lead ++ body) with
  | none =>
    have hpos := h.one_lt_length
    rw [hwin, reach, Option.map_none, Option.getD_none] at hle
    omega
  | some w =>
    obtain ⟨above, category, below, -, hw, -⟩ := exists_of_longestClaim? hwin
    rw [hwin] at hle
    have hle : (c.claim body).length ≤ w.length := hle
    -- Another winner would be shorter than the marker.
    by_cases heq : category = c.category
    · rw [heq, hown] at hw
      cases hw
      rfl
    · have hlt := length_lt_of_ne hp h heq hw
      omega

end Construct

end Scan

end PolyLex
