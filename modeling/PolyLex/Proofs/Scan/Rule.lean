import PolyLex.Proofs.Scan.Claims
import PolyLex.Proofs.Scan.Encoding

/-!
# The rule of each category

`Category.Takes` says which opening of the rest of a line a category takes, without saying how it
is found: constructs by the first place where they close (`Spans`), everything else as the longest
opening that belongs to the category (`Longest`). `takes_iff_claim?` is what ties the rule to the
claims of the scanner: the openings that are taken, the empty one apart, are those that are
claimed.

A line terminator is a line feed or the pair of carriage return and line feed; a carriage return at
the end of an unterminated last line counts as one too.
-/

namespace PolyLex

open Text

namespace Profile

/-- The text as a whole has the form of a word. -/
def IsWord (p : Profile) (w : List Char) : Prop :=
  ∃ c cs, w = c :: cs ∧ p.isWordStart c = true ∧ ∀ d ∈ cs, p.isWordPart d = true

/-- The text as a whole is an operator. -/
def IsOperator (p : Profile) (w : List Char) : Prop := ∃ op ∈ p.operators, w = op.toList

end Profile

namespace Scan

/-! ### The rule -/

/-- `w` is the longest opening of the text that has the property. -/
def Longest (L : List Char → Prop) (text w : List Char) : Prop :=
  w <+: text ∧ L w ∧ ∀ v, v <+: text → L v → v.length ≤ w.length

/-- A construct that `lead` opens takes `w`: through the first place where it closes, or all of the
text if it does not close there. -/
def Spans (escapes : Bool) (lead close text w : List Char) : Prop :=
  ∃ body, text = lead ++ body ∧
    ((∃ i, FirstClose escapes close body i ∧ w = lead ++ body.take (i + close.length)) ∨
      (∀ i, ¬ ClosesAt escapes close body i) ∧ w = text)

def terminators : List (List Char) := [[], ['\n'], ['\r'], ['\r', '\n']]

/-- `w` is the line without its terminator. -/
def IsContentOf (line w : List Char) : Prop :=
  ∃ t ∈ terminators, line = w ++ t ∧ ∀ t' ∈ terminators, t' <:+ line → t'.length ≤ t.length

/-- The delimiter is the first listed one that starts the text. -/
def IsFirstStart (delimiters : List String) (text : List Char) (delimiter : String) : Prop :=
  ∃ above below, delimiters = above ++ delimiter :: below ∧ delimiter.toList <+: text ∧
    ∀ d ∈ above, ¬ d.toList <+: text

/-- The text as a whole is white space, and there is some. -/
def IsBlankRun (w : List Char) : Prop := w ≠ [] ∧ ∀ c ∈ w, isBlank c = true

/-- The text as a whole is one character of the table. -/
def IsOneOf (table w : List Char) : Prop := ∃ c ∈ table, w = [c]

namespace Category

/-- The rule of a category: it takes the opening `w` of the rest of a line. -/
def Takes (p : Profile) (rest w : List Char) : Category → Prop
  | blockComment => ∃ marks ∈ p.blockComment, Spans false marks.1.toList marks.2.toList rest w
  | lineComment => (∃ marker ∈ p.lineComments, marker.toList <+: rest) ∧ IsContentOf rest w
  | blockString => ∃ delimiter, IsFirstStart p.blockStrings rest delimiter ∧
      Spans true delimiter.toList delimiter.toList rest w
  | quoted => ∃ quote ∈ p.quotes, ∃ line, IsContentOf rest line ∧ Spans true [quote] [quote] line w
  | number => Longest IsNumber rest w
  | word => Longest p.IsWord rest w
  | operator => Longest p.IsOperator rest w
  | punctuation => Longest (IsOneOf p.punctuation) rest w
  | delimiter => Longest (IsOneOf p.delimiters) rest w
  | whitespace => Longest IsBlankRun rest w

/-- The kind of token that a category makes of what it takes. -/
def kindOf (p : Profile) (w : List Char) : Category → Kind
  | blockComment => .comment
  | lineComment => .comment
  | blockString => .string
  | quoted => if w.head?.any (p.stringQuotes.contains ·) then .string else .literal
  | number => .number
  | word => if String.ofList w ∈ p.keywords then .keyword else .identifier
  | operator => .operator
  | punctuation => .punctuation
  | delimiter => .delimiter
  | whitespace => .whitespace

end Category

/-! ### Longest openings -/

/-- There is one longest opening. -/
theorem Longest.unique {L : List Char → Prop} {text v w : List Char} (hv : Longest L text v)
    (hw : Longest L text w) : v = w := by
  have hlen : v.length = w.length :=
    Nat.le_antisymm (hw.2.2 v hv.1 hv.2.1) (hv.2.2 w hw.1 hw.2.1)
  rw [List.prefix_iff_eq_take.mp hv.1, List.prefix_iff_eq_take.mp hw.1, hlen]

/-- The longest opening is what the claim takes. -/
theorem Longest.iff_of_some {L : List Char → Prop} {text v w : List Char} {claim : Claim}
    (hv : Longest L text v) (hlen : v.length = claim.length) :
    Longest L text w ↔ ∃ c, some claim = some c ∧ w = text.take c.length := by
  have hclaim : v = text.take claim.length := by
    rw [← hlen, ← List.prefix_iff_eq_take]
    exact hv.1
  constructor
  · intro hw
    exact ⟨claim, rfl, (hw.unique hv).trans hclaim⟩
  · rintro ⟨c, hc, rfl⟩
    cases hc
    rwa [← hclaim]

/-- Without a claim there is no longest opening. -/
theorem longest_iff_of_none {L : List Char → Prop} {text w : List Char}
    (hno : ∀ v, v <+: text → ¬ L v) :
    Longest L text w ↔ ∃ c : Claim, none = some c ∧ w = text.take c.length := by
  constructor
  · rintro ⟨hw, hL, -⟩
    exact absurd hL (hno w hw)
  · rintro ⟨c, hc, -⟩
    cases hc

/-- The longest opening of a class of characters is its run. -/
theorem longest_takeWhile {q : Char → Bool} {text : List Char} (hne : text.takeWhile q ≠ []) :
    Longest (fun w => w ≠ [] ∧ ∀ c ∈ w, q c = true) text (text.takeWhile q) := by
  refine ⟨List.takeWhile_prefix q, ⟨hne, of_mem_takeWhile⟩, ?_⟩
  rintro v ⟨more, rfl⟩ ⟨-, hv⟩
  rw [List.takeWhile_append_of_pos hv, List.length_append]
  exact Nat.le_add_right _ _

/-! ### Lines without their terminator -/

/-- `content` takes off the longest terminator. -/
theorem isContentOf_content (line : List Char) : IsContentOf line (content line) := by
  fun_induction content line with
  | case1 => exact ⟨[], by decide, rfl, by decide⟩
  | case2 => exact ⟨['\n'], by decide, rfl, by decide⟩
  | case3 => exact ⟨['\r'], by decide, rfl, by decide⟩
  | case4 => exact ⟨['\r', '\n'], by decide, rfl, by decide⟩
  | case5 c cs h₁ h₂ h₃ ih =>
    obtain ⟨t, ht, hcs, hmax⟩ := ih
    refine ⟨t, ht, by rw [List.cons_append, ← hcs], ?_⟩
    intro t' ht' hsuffix
    -- A terminator that ends the longer line ends the shorter one, or it is the longer line.
    rcases List.suffix_cons_iff.mp hsuffix with rfl | hsuffix
    · simp only [terminators, List.mem_cons, List.not_mem_nil, or_false, List.cons.injEq,
        reduceCtorEq, false_or] at ht'
      rcases ht' with ⟨rfl, rfl⟩ | ⟨rfl, rfl⟩ | ⟨rfl, rfl⟩
      · exact absurd rfl (h₁ rfl)
      · exact absurd rfl (h₂ rfl)
      · exact absurd rfl (h₃ rfl)
    · exact hmax t' ht' hsuffix

/-- The content of a line is the line without its end. -/
theorem isContentOf_iff {line w : List Char} : IsContentOf line w ↔ w = content line := by
  constructor
  · rintro ⟨t, ht, hline, hmax⟩
    obtain ⟨t', ht', hline', hmax'⟩ := isContentOf_content line
    have hlen : t.length = t'.length :=
      Nat.le_antisymm (hmax' t ht ⟨w, hline.symm⟩) (hmax t' ht' ⟨content line, hline'.symm⟩)
    have happend := hline.symm.trans hline'
    exact (List.append_inj' happend hlen).1
  · rintro rfl
    exact isContentOf_content line

/-! ### Constructs -/

theorem toList_ne_nil {s : String} (h : s ≠ "") : s.toList ≠ [] := by
  intro hnil
  exact h (String.toList_eq_nil_iff.mp hnil)

/-- What a construct spans is as long as the claim on it. -/
theorem spans_iff {escapes : Bool} {lead close body w : List Char} (h : Searchable escapes close)
    (kind : Kind) (mode : Mode) : Spans escapes lead close (lead ++ body) w ↔
      w = (lead ++ body).take
        (Category.openConstruct kind escapes lead close (lead ++ body) body mode).length := by
  rw [Category.openConstruct]
  constructor
  · rintro ⟨body', happend, hw⟩
    obtain rfl := List.append_cancel_left happend
    rcases hw with ⟨i, hi, rfl⟩ | ⟨hno, rfl⟩
    · rw [(closeEnd?_eq_some_iff h).mpr ⟨i, hi, rfl⟩]
      exact (List.take_length_add_append _).symm
    · rw [(closeEnd?_eq_none_iff h).mpr hno]
      exact List.take_length.symm
  · intro hw
    refine ⟨body, rfl, ?_⟩
    cases hend : closeEnd? escapes close body with
    | some n =>
      obtain ⟨i, hi, rfl⟩ := (closeEnd?_eq_some_iff h).mp hend
      rw [hend] at hw
      exact .inl ⟨i, hi, hw.trans (List.take_length_add_append _)⟩
    | none =>
      rw [hend] at hw
      exact .inr ⟨(closeEnd?_eq_none_iff h).mp hend, hw.trans List.take_length⟩

/-- Nothing is spanned where the opening marker does not stand. -/
theorem Spans.isPrefix {escapes : Bool} {lead close text w : List Char}
    (h : Spans escapes lead close text w) : lead <+: text := by
  obtain ⟨body, rfl, -⟩ := h
  exact List.prefix_append lead body

/-- The first delimiter that starts the text is the one that is found. -/
theorem isFirstStart_iff {delimiters : List String} {text : List Char} {delimiter : String} :
    IsFirstStart delimiters text delimiter ↔
      delimiters.find? (fun d => startsWith d.toList text) = some delimiter := by
  rw [List.find?_eq_some_iff_append, IsFirstStart]
  simp only [startsWith_iff, Bool.not_eq_true', ← Bool.not_eq_true]
  constructor
  · rintro ⟨above, below, hsplit, hstarts, hno⟩
    exact ⟨hstarts, above, below, hsplit, hno⟩
  · rintro ⟨hstarts, above, below, hsplit, hno⟩
    exact ⟨above, below, hsplit, hstarts, hno⟩

/-- A delimiter that starts the text is one of the list. -/
theorem IsFirstStart.mem {delimiters : List String} {text : List Char} {delimiter : String}
    (h : IsFirstStart delimiters text delimiter) : delimiter ∈ delimiters :=
  List.mem_of_find?_eq_some (isFirstStart_iff.mp h)

namespace Category

variable {p : Profile} {rest w : List Char}

/-- Block comments are claimed by the rule. -/
theorem takes_blockComment_iff (hp : p.WellMarked) : blockComment.Takes p rest w ↔
    ∃ c, blockComment.claim? p rest = some c ∧ w = rest.take c.length := by
  have hsearch : ∀ marks ∈ p.blockComment, Searchable false marks.2.toList := by
    intro marks hmarks
    exact ⟨toList_ne_nil (hp.blockComment marks hmarks).2, nofun⟩
  simp only [Takes, claim?, blockCommentClaim?_eq_some_iff]
  constructor
  · rintro ⟨marks, hmarks, hspans⟩
    obtain ⟨body, rfl⟩ := hspans.isPrefix
    exact ⟨_, ⟨marks, hmarks, body, rfl, rfl⟩,
      (spans_iff (hsearch marks hmarks) .comment .blockComment).mp hspans⟩
  · rintro ⟨c, ⟨marks, hmarks, body, rfl, rfl⟩, hw⟩
    exact ⟨marks, hmarks, (spans_iff (hsearch marks hmarks) .comment .blockComment).mpr hw⟩

theorem takes_lineComment_iff : lineComment.Takes p rest w ↔
    ∃ c, lineComment.claim? p rest = some c ∧ w = rest.take c.length := by
  simp only [Takes, claim?, lineCommentClaim?_eq_some_iff, isContentOf_iff]
  constructor
  · rintro ⟨hmarker, rfl⟩
    exact ⟨_, ⟨hmarker, rfl⟩, (take_length_content rest).symm⟩
  · rintro ⟨c, ⟨hmarker, rfl⟩, rfl⟩
    exact ⟨hmarker, take_length_content rest⟩

theorem takes_blockString_iff (hp : p.WellMarked) : blockString.Takes p rest w ↔
    ∃ c, blockString.claim? p rest = some c ∧ w = rest.take c.length := by
  -- No delimiter of a well marked profile is empty or begins with a backslash.
  have hsearch : ∀ {delimiter : String},
      p.blockStrings.find? (fun d => startsWith d.toList rest) = some delimiter →
        Searchable true delimiter.toList := by
    intro delimiter hfind
    obtain ⟨hne, hhead⟩ := hp.blockStrings delimiter (List.mem_of_find?_eq_some hfind)
    exact ⟨toList_ne_nil hne, fun _ => hhead⟩
  simp only [Takes, claim?, blockStringClaim?_eq_some_iff, isFirstStart_iff]
  constructor
  · rintro ⟨delimiter, hfind, hspans⟩
    have hsearchable := hsearch hfind
    obtain ⟨body, rfl⟩ := hspans.isPrefix
    exact ⟨_, ⟨delimiter, hfind, body, rfl, rfl⟩,
      (spans_iff hsearchable .string (.blockString delimiter)).mp hspans⟩
  · rintro ⟨c, ⟨delimiter, hfind, body, rfl, rfl⟩, hw⟩
    exact ⟨delimiter, hfind,
      (spans_iff (hsearch hfind) .string (.blockString delimiter)).mpr hw⟩

/-! ### Literals of one line -/

/-- A quote has a kind just if the profile lists it. -/
theorem isSome_quoteKind?_iff {quote : Char} :
    (quoteKind? p quote).isSome = true ↔ quote ∈ p.quotes := by
  constructor
  · intro h
    obtain ⟨kind, hkind⟩ := Option.isSome_iff_exists.mp h
    exact mem_of_quoteKind? hkind
  · intro h
    unfold quoteKind?
    rcases List.mem_append.mp h with hs | hc
    · rw [if_pos (List.contains_iff_mem.mpr hs)]
      rfl
    · split
      · rfl
      · rw [if_pos (List.contains_iff_mem.mpr hc)]
        rfl

/-- A literal is a construct that has its line without the terminator for all of its text. -/
theorem quotedClaim?_eq_openConstruct {quote : Char} {kind : Kind} {body : List Char}
    (hkind : quoteKind? p quote = some kind) (hline : content rest = quote :: body) :
    quotedClaim? p rest =
      some (openConstruct kind true [quote] [quote] (quote :: body) body .normal) := by
  have hhead : rest.head? = some quote := by
    obtain ⟨ending, hrest⟩ := content_isPrefix rest
    rw [← hrest, hline]
    rfl
  simp only [quotedClaim?, hhead, Option.bind_eq_bind, Option.bind_some, hkind, hline,
    List.tail_cons, openConstruct]
  split
  · rw [List.length_singleton, Nat.add_comm]
    rfl
  · rfl

/-- A literal is claimed at a quote. -/
theorem exists_of_quotedClaim? {c : Claim} (h : quotedClaim? p rest = some c) :
    ∃ quote kind, rest.head? = some quote ∧ quoteKind? p quote = some kind := by
  simp only [quotedClaim?, Option.bind_eq_bind, Option.bind_eq_some_iff] at h
  obtain ⟨quote, hhead, kind, hkind, -⟩ := h
  exact ⟨quote, kind, hhead, hkind⟩

/-- A quote that starts a text starts its content. -/
theorem exists_content_eq_cons (hp : p.WellMarked) {quote : Char} {kind : Kind}
    (hhead : rest.head? = some quote) (hkind : quoteKind? p quote = some kind) :
    ∃ body, content rest = quote :: body := by
  obtain ⟨hn, hr⟩ := hp.quotesInLine quote (mem_of_quoteKind? hkind)
  cases rest with
  | nil => cases hhead
  | cons c cs =>
    cases hhead
    exact ⟨content cs, content_cons_of_ne hn hr cs⟩

theorem takes_quoted_iff (hp : p.WellMarked) : quoted.Takes p rest w ↔
    ∃ c, quoted.claim? p rest = some c ∧ w = rest.take c.length := by
  have hsearch : ∀ quote ∈ p.quotes, Searchable true [quote] := by
    intro quote hquote
    refine ⟨List.cons_ne_nil _ _, fun _ hhead => ?_⟩
    exact hp.quotesUnescaped quote hquote (Option.some.inj hhead)
  -- The claim is made on the content, which the text has the same opening as.
  have htake : ∀ {quote : Char} {body : List Char} (kind : Kind), content rest = quote :: body →
      let c := openConstruct kind true [quote] [quote] (quote :: body) body .normal
      (quote :: body).take c.length = rest.take c.length := by
    intro quote body kind hline c
    have hmode : Mode.FitsIn p .normal := trivial
    have hle := (sound_openConstruct hmode kind true [quote] [quote] body).length_le
    obtain ⟨ending, hrest⟩ := content_isPrefix rest
    rw [← hrest, hline]
    exact (List.take_append_of_le_length hle).symm
  simp only [Takes, claim?, isContentOf_iff]
  constructor
  · rintro ⟨quote, hquote, _, rfl, hspans⟩
    obtain ⟨kind, hkind⟩ := Option.isSome_iff_exists.mp (isSome_quoteKind?_iff.mpr hquote)
    obtain ⟨body, hbody⟩ := hspans.isPrefix
    have hline : content rest = quote :: body := hbody.symm
    refine ⟨_, quotedClaim?_eq_openConstruct hkind hline, ?_⟩
    rw [hline] at hspans
    rw [← htake kind hline]
    exact (spans_iff (hsearch quote hquote) kind .normal).mp hspans
  · rintro ⟨c, hc, hw⟩
    obtain ⟨quote, kind, hhead, hkind⟩ := exists_of_quotedClaim? hc
    have hquote := mem_of_quoteKind? hkind
    obtain ⟨body, hline⟩ := exists_content_eq_cons hp hhead hkind
    rw [quotedClaim?_eq_openConstruct hkind hline, Option.some.injEq] at hc
    subst hc
    refine ⟨quote, hquote, _, rfl, ?_⟩
    rw [hline]
    rw [← htake kind hline] at hw
    exact (spans_iff (hsearch quote hquote) kind .normal).mpr hw

/-! ### Numbers, words and tables -/

/-- The longest number is what `numberLength` measures. -/
theorem longest_number (h : numberLength rest ≠ 0) :
    Longest IsNumber rest (rest.take (numberLength rest)) := by
  refine ⟨List.take_prefix _ _, isNumber_take_numberLength h, fun v hv hnumber => ?_⟩
  rw [length_take_numberLength]
  exact length_le_numberLength hv hnumber

theorem takes_number_iff : number.Takes p rest w ↔
    ∃ c, number.claim? p rest = some c ∧ w = rest.take c.length := by
  simp only [Takes, claim?, numberClaim?]
  by_cases hzero : numberLength rest = 0
  · rw [if_pos hzero]
    apply longest_iff_of_none
    intro v hv hnumber
    have hlen := length_le_numberLength hv hnumber
    rw [hzero, Nat.le_zero, List.length_eq_zero_iff] at hlen
    exact hnumber.ne_nil hlen
  · rw [if_neg hzero]
    exact (longest_number hzero).iff_of_some (length_take_numberLength rest)

/-- The longest word is its first character and the run behind it. -/
theorem longest_word {c : Char} (hstart : p.isWordStart c = true) (cs : List Char) :
    Longest p.IsWord (c :: cs) (c :: cs.takeWhile p.isWordPart) := by
  refine ⟨List.cons_prefix_cons.mpr ⟨rfl, List.takeWhile_prefix _⟩,
    ⟨c, _, rfl, hstart, of_mem_takeWhile⟩, ?_⟩
  rintro v hv ⟨d, ds, rfl, -, hds⟩
  obtain ⟨-, more, rfl⟩ := List.cons_prefix_cons.mp hv
  have hrun := runLength_append hds more
  rw [runLength] at hrun
  rw [List.length_cons, List.length_cons, hrun]
  omega

theorem takes_word_iff : word.Takes p rest w ↔
    ∃ c, word.claim? p rest = some c ∧ w = rest.take c.length := by
  simp only [Takes, claim?]
  cases rest with
  | nil =>
    apply longest_iff_of_none
    rintro v hv ⟨d, ds, rfl, -⟩
    exact List.cons_ne_nil d ds (List.prefix_nil.mp hv)
  | cons d ds =>
    rw [wordClaim?]
    by_cases hstart : p.isWordStart d = true
    · rw [if_pos hstart]
      exact (longest_word hstart ds).iff_of_some rfl
    · rw [if_neg hstart]
      apply longest_iff_of_none
      rintro v hv ⟨e, es, rfl, hstart', -⟩
      obtain ⟨rfl, -⟩ := List.cons_prefix_cons.mp hv
      exact hstart hstart'

/-- Of two openings of one text the one with fewer bytes has no more characters. -/
theorem length_le_of_size_le {v w text : List Char} (hv : v <+: text) (hw : w <+: text)
    (h : Bytes.size v ≤ Bytes.size w) : v.length ≤ w.length := by
  rcases Nat.le_total v.length w.length with hle | hle
  · exact hle
  · obtain ⟨more, rfl⟩ := List.prefix_of_prefix_length_le hw hv hle
    rw [Bytes.size_append] at h
    cases more with
    | nil => exact Nat.le_of_eq (congrArg List.length (List.append_nil w))
    | cons c cs =>
      have := Bytes.size_pos (List.cons_ne_nil c cs)
      omega

/-- The first operator that starts a text is the longest that does. -/
theorem longest_operator {op : String}
    (h : p.operators.find? (fun op => startsWith op.toList rest) = some op) :
    Longest p.IsOperator rest op.toList := by
  obtain ⟨hstarts, above, below, hsplit, hno⟩ := List.find?_eq_some_iff_append.mp h
  have harranged := p.arranged
  rw [hsplit, Profile.Arranged, List.pairwise_append, List.pairwise_cons] at harranged
  obtain ⟨-, ⟨hbelow, -⟩, -⟩ := harranged
  have hop : op.toList <+: rest := startsWith_iff.mp hstarts
  refine ⟨hop, ⟨op, List.mem_of_find?_eq_some h, rfl⟩, ?_⟩
  rintro v hv ⟨other, hother, rfl⟩
  rw [hsplit, List.mem_append, List.mem_cons] at hother
  -- Operators are ordered by bytes, so bytes are what is compared.
  apply length_le_of_size_le hv hop
  rw [Bytes.size_toList, Bytes.size_toList]
  rcases hother with habove | rfl | hmem
  · have := hno other habove
    rw [startsWith_iff.mpr hv] at this
    cases this
  · exact Nat.le_refl _
  · rcases Profile.standsBefore_iff.mp (hbelow other hmem) with hlt | ⟨heq, -⟩
    · exact Nat.le_of_lt hlt
    · exact Nat.le_of_eq heq.symm

theorem takes_operator_iff : operator.Takes p rest w ↔
    ∃ c, operator.claim? p rest = some c ∧ w = rest.take c.length := by
  simp only [Takes, claim?, operatorClaim?, Option.bind_eq_bind]
  cases hfind : p.operators.find? fun op => startsWith op.toList rest with
  | none =>
    rw [List.find?_eq_none] at hfind
    apply longest_iff_of_none
    rintro v hv ⟨op, hop, rfl⟩
    exact hfind op hop (startsWith_iff.mpr hv)
  | some op => exact (longest_operator hfind).iff_of_some String.length_toList

/-- Single characters of a table are claimed by the rule. -/
theorem longest_single_iff {kind : Kind} {table : List Char} :
    Longest (IsOneOf table) rest w ↔
      ∃ c, singleClaim? kind table rest = some c ∧ w = rest.take c.length := by
  cases rest with
  | nil =>
    apply longest_iff_of_none
    rintro v hv ⟨d, -, rfl⟩
    exact List.cons_ne_nil d [] (List.prefix_nil.mp hv)
  | cons d ds =>
    simp only [singleClaim?, List.head?_cons, Option.bind_eq_bind, Option.bind_some,
      List.contains_iff_mem]
    -- An opening has one character, so there is no longer one.
    by_cases hmem : d ∈ table
    · have hlongest : Longest (IsOneOf table) (d :: ds) [d] := by
        refine ⟨List.cons_prefix_cons.mpr ⟨rfl, List.nil_prefix⟩, ⟨d, hmem, rfl⟩, ?_⟩
        rintro v - ⟨e, -, rfl⟩
        exact Nat.le_refl 1
      rw [if_pos hmem]
      exact hlongest.iff_of_some rfl
    · rw [if_neg hmem]
      apply longest_iff_of_none
      rintro v hv ⟨e, he, rfl⟩
      obtain ⟨rfl, -⟩ := List.cons_prefix_cons.mp hv
      exact hmem he

/-- There is always a claim on white space, though it may be empty. -/
theorem takes_whitespace_iff (hw : w ≠ []) : whitespace.Takes p rest w ↔
    ∃ c, whitespace.claim? p rest = some c ∧ w = rest.take c.length := by
  simp only [Takes, claim?, whitespaceClaim?]
  by_cases hblank : rest.takeWhile isBlank = []
  · constructor
    · rintro ⟨⟨more, rfl⟩, ⟨-, hall⟩, -⟩
      rw [List.takeWhile_append_of_pos hall, List.append_eq_nil_iff] at hblank
      exact absurd hblank.1 hw
    · rintro ⟨c, hc, rfl⟩
      cases hc
      rw [← take_runLength] at hblank
      exact absurd hblank hw
  · exact (longest_takeWhile hblank).iff_of_some rfl

/-- A category takes what it claims, and nothing else but perhaps the empty opening. -/
theorem takes_iff_claim? (hp : p.WellMarked) {category : Category} (hw : w ≠ []) :
    category.Takes p rest w ↔
      ∃ c, category.claim? p rest = some c ∧ w = rest.take c.length := by
  cases category with
  | blockComment => exact takes_blockComment_iff hp
  | lineComment => exact takes_lineComment_iff
  | blockString => exact takes_blockString_iff hp
  | quoted => exact takes_quoted_iff hp
  | number => exact takes_number_iff
  | word => exact takes_word_iff
  | operator => exact takes_operator_iff
  | punctuation => exact longest_single_iff
  | delimiter => exact longest_single_iff
  | whitespace => exact takes_whitespace_iff hw

end Category

end Scan

end PolyLex
