import PolyLex.Proofs.Scan.Carry

/-!
# Where a category starts

Whether a category takes anything at a place is seen from an opening of the text: a marker, a quote
or a whole lexeme stands there (`Category.Opens`). Nothing behind that opening matters, so a
category that starts on a text starts on every longer one.

* `exists_opens_of_takes`: what is taken starts with such an opening, and is one if the category has
  no markers;
* `exists_takes_of_opens`: where such an opening stands, something is taken.
-/

namespace PolyLex.Scan

open Text

namespace Category

/-- The openings that a profile lists for a category. -/
def spellings (p : Profile) : Category → List (List Char)
  | blockComment => p.blockComment.toList.map fun marks => marks.1.toList
  | lineComment => p.lineComments.map String.toList
  | blockString => p.blockStrings.map String.toList
  | quoted => p.quotes.map ([·])
  | operator => p.operators.map String.toList
  | punctuation => p.punctuation.map ([·])
  | delimiter => p.delimiters.map ([·])
  | number | word | whitespace => []

/-- The text as a whole is an opening by which the category is known. -/
def Opens (p : Profile) (v : List Char) : Category → Prop
  | number => IsNumber v
  | word => p.IsWord v
  | whitespace => IsBlankRun v
  | category => v ∈ category.spellings p

/-- Is the opening all that the category takes? -/
def isWhole : Category → Bool
  | blockComment | lineComment | blockString | quoted => false
  | number | word | operator | punctuation | delimiter | whitespace => true

variable {p : Profile} {rest v w : List Char} {category : Category}

/-- The operators of a profile are those of its table. -/
theorem mem_spellings_operator : v ∈ operator.spellings p ↔ p.IsOperator v := by
  simp only [spellings, List.mem_map, Profile.IsOperator, @eq_comm _ v]

theorem mem_spellings_punctuation : v ∈ punctuation.spellings p ↔ IsOneOf p.punctuation v := by
  simp only [spellings, List.mem_map, IsOneOf, @eq_comm _ v]

theorem mem_spellings_delimiter : v ∈ delimiter.spellings p ↔ IsOneOf p.delimiters v := by
  simp only [spellings, List.mem_map, IsOneOf, @eq_comm _ v]

theorem ne_nil_of_mem_spellings (hp : p.WellMarked) (hin : p.WithinLines)
    (h : v ∈ category.spellings p) : v ≠ [] := by
  cases category with
  | blockComment =>
    obtain ⟨marks, hmarks, rfl⟩ := List.mem_map.mp h
    exact toList_ne_nil (hp.blockComment marks (Option.mem_toList.mp hmarks)).1
  | lineComment =>
    obtain ⟨marker, hmarker, rfl⟩ := List.mem_map.mp h
    exact toList_ne_nil (hp.lineComments marker hmarker)
  | blockString =>
    obtain ⟨delimiter, hdelimiter, rfl⟩ := List.mem_map.mp h
    exact toList_ne_nil (hp.blockStrings delimiter hdelimiter).1
  | operator =>
    obtain ⟨op, hop, rfl⟩ := List.mem_map.mp h
    exact toList_ne_nil (hin.operators op hop).1
  | quoted | punctuation | delimiter =>
    obtain ⟨c, -, rfl⟩ := List.mem_map.mp h
    exact List.cons_ne_nil c []
  | number | word | whitespace => cases h

theorem opens_ne_nil (hp : p.WellMarked) (hin : p.WithinLines) (h : category.Opens p v) :
    v ≠ [] := by
  cases category with
  | number => exact IsNumber.ne_nil h
  | word =>
    obtain ⟨c, cs, rfl, -⟩ := h
    exact List.cons_ne_nil c cs
  | whitespace => exact h.1
  | blockComment | lineComment | blockString | quoted | operator | punctuation | delimiter =>
    exact ne_nil_of_mem_spellings hp hin h

/-! ### From what is taken to its opening -/

/-- What is taken starts with an opening of the category. -/
theorem exists_opens_of_takes (hin : p.WithinLines) (h : category.Takes p rest w) :
    ∃ v, category.Opens p v ∧ v <+: w ∧ (category.isWhole = true → v = w) := by
  cases category with
  | blockComment =>
    obtain ⟨marks, hmarks, hspans⟩ := h
    exact ⟨_, List.mem_map_of_mem (Option.mem_toList.mpr hmarks), hspans.lead_isPrefix, nofun⟩
  | lineComment =>
    obtain ⟨⟨marker, hmarker, more, rfl⟩, hcontent⟩ := h
    refine ⟨_, List.mem_map_of_mem hmarker, ?_, nofun⟩
    -- The marker holds no terminator, so none of it is cut off with the terminator of the line.
    rw [isContentOf_iff, Construct.content_append (hin.lineComments marker hmarker)] at hcontent
    rw [hcontent]
    exact List.prefix_append _ _
  | blockString =>
    obtain ⟨delimiter, hfirst, hspans⟩ := h
    exact ⟨_, List.mem_map_of_mem hfirst.mem, hspans.lead_isPrefix, nofun⟩
  | quoted =>
    obtain ⟨quote, hquote, line, -, hspans⟩ := h
    exact ⟨_, List.mem_map_of_mem hquote, hspans.lead_isPrefix, nofun⟩
  | number => exact ⟨w, h.2.1, List.prefix_rfl, fun _ => rfl⟩
  | word => exact ⟨w, h.2.1, List.prefix_rfl, fun _ => rfl⟩
  | operator => exact ⟨w, mem_spellings_operator.mpr h.2.1, List.prefix_rfl, fun _ => rfl⟩
  | punctuation => exact ⟨w, mem_spellings_punctuation.mpr h.2.1, List.prefix_rfl, fun _ => rfl⟩
  | delimiter => exact ⟨w, mem_spellings_delimiter.mpr h.2.1, List.prefix_rfl, fun _ => rfl⟩
  | whitespace => exact ⟨w, h.2.1, List.prefix_rfl, fun _ => rfl⟩

/-! ### From an opening to a claim -/

/-- Behind a marker of a line comment there is a claim of one. -/
theorem exists_claim?_lineComment (hin : p.WithinLines) {marker : String}
    (hmem : marker ∈ p.lineComments) (hne : marker.toList ≠ []) (hv : marker.toList <+: rest) :
    ∃ c, lineComment.claim? p rest = some c ∧ 0 < c.length := by
  refine ⟨_, lineCommentClaim?_eq_some_iff.mpr ⟨⟨marker, hmem, hv⟩, rfl⟩, ?_⟩
  obtain ⟨body, rfl⟩ := hv
  show 0 < (content (marker.toList ++ body)).length
  rw [Construct.content_append (hin.lineComments marker hmem), List.length_append]
  exact Nat.add_pos_left (List.length_pos_iff.mpr hne) _

/-- Where a listed text stands, one of the list is found, if perhaps another that is listed before.
-/
theorem exists_find?_startsWith {texts : List String} {text : String} (hmem : text ∈ texts)
    (hv : text.toList <+: rest) : ∃ found ∈ texts, found.toList <+: rest ∧
      texts.find? (fun t => startsWith t.toList rest) = some found := by
  have hfound : (texts.find? fun t => startsWith t.toList rest).isSome = true :=
    List.find?_isSome.mpr ⟨text, hmem, startsWith_iff.mpr hv⟩
  obtain ⟨found, hfind⟩ := Option.isSome_iff_exists.mp hfound
  have hstarts : startsWith found.toList rest = true := by
    simpa using List.find?_some hfind
  exact ⟨found, List.mem_of_find?_eq_some hfind, startsWith_iff.mp hstarts, hfind⟩

/-- Behind a delimiter of a block string there is a claim of one. -/
theorem exists_claim?_blockString (hp : p.WellMarked) {delimiter : String}
    (hmem : delimiter ∈ p.blockStrings) (hv : delimiter.toList <+: rest) :
    ∃ c, blockString.claim? p rest = some c ∧ 0 < c.length := by
  obtain ⟨found, hfound, ⟨body, rfl⟩, hfind⟩ := exists_find?_startsWith hmem hv
  have hne := toList_ne_nil (hp.blockStrings found hfound).1
  exact ⟨_, blockStringClaim?_eq_some_iff.mpr ⟨found, hfind, body, rfl, rfl⟩,
    Nat.lt_of_lt_of_le (List.length_pos_iff.mpr hne) (length_lead_le_openConstruct ..)⟩

/-- Behind a quote there is a claim of a quoted text, closed or not. -/
theorem exists_claim?_quoted (hp : p.WellMarked) {quote : Char} (hmem : quote ∈ p.quotes)
    (hv : [quote] <+: rest) : ∃ c, quoted.claim? p rest = some c ∧ 0 < c.length := by
  obtain ⟨kind, hkind⟩ := Option.isSome_iff_exists.mp (isSome_quoteKind?_iff.mpr hmem)
  have hhead : rest.head? = some quote := by
    obtain ⟨body, rfl⟩ := hv
    rfl
  obtain ⟨body, hline⟩ := exists_content_eq_cons hp hhead hkind
  exact ⟨_, quotedClaim?_eq_openConstruct hkind hline,
    length_lead_le_openConstruct kind true [quote] [quote] body .normal⟩

/-- Where an operator stands, there is a claim of one at least as long. -/
theorem exists_claim?_operator (hin : p.WithinLines) {op : String} (hmem : op ∈ p.operators)
    (hv : op.toList <+: rest) : ∃ c, operator.claim? p rest = some c ∧ 0 < c.length := by
  obtain ⟨found, hfound, -, hfind⟩ := exists_find?_startsWith hmem hv
  refine ⟨_, operatorClaim?_eq_some_iff.mpr ⟨found, hfind, rfl⟩, ?_⟩
  show 0 < found.length
  rw [← String.length_toList, List.length_pos_iff]
  exact toList_ne_nil (hin.operators found hfound).1

/-- Where a character of a table stands, it is claimed. -/
theorem exists_singleClaim? {kind : Kind} {table : List Char} (h : IsOneOf table v)
    (hv : v <+: rest) : ∃ c, singleClaim? kind table rest = some c ∧ 0 < c.length := by
  obtain ⟨c, hmem, rfl⟩ := h
  obtain ⟨cs, rfl⟩ := hv
  exact ⟨_, singleClaim?_eq_some_iff.mpr ⟨c, hmem, cs, rfl, rfl⟩, Nat.one_pos⟩

/-- Where an opening of the category stands, the category claims something. -/
theorem exists_claim?_of_opens (hp : p.WellMarked) (hin : p.WithinLines)
    (h : category.Opens p v) (hv : v <+: rest) :
    ∃ c, category.claim? p rest = some c ∧ 0 < c.length := by
  have hpos : 0 < v.length := List.length_pos_iff.mpr (opens_ne_nil hp hin h)
  cases category with
  | blockComment =>
    obtain ⟨marks, hmarks, rfl⟩ := List.mem_map.mp h
    obtain ⟨body, rfl⟩ := hv
    exact ⟨_, blockCommentClaim?_eq_some_iff.mpr
        ⟨marks, Option.mem_toList.mp hmarks, body, rfl, rfl⟩,
      Nat.lt_of_lt_of_le hpos (length_lead_le_openConstruct ..)⟩
  | lineComment =>
    obtain ⟨marker, hmem, rfl⟩ := List.mem_map.mp h
    exact exists_claim?_lineComment hin hmem (List.length_pos_iff.mp hpos) hv
  | blockString =>
    obtain ⟨delimiter, hmem, rfl⟩ := List.mem_map.mp h
    exact exists_claim?_blockString hp hmem hv
  | quoted =>
    obtain ⟨quote, hmem, rfl⟩ := List.mem_map.mp h
    exact exists_claim?_quoted hp hmem hv
  -- The reader takes the longest number, so no less than the opening.
  | number =>
    have hle := length_le_numberLength hv h
    exact ⟨_, numberClaim?_eq_some_iff.mpr ⟨by omega, rfl⟩, Nat.lt_of_lt_of_le hpos hle⟩
  | word =>
    obtain ⟨c, cs, rfl, hstart, -⟩ := h
    obtain ⟨more, rfl⟩ := hv
    exact ⟨_, wordClaim?_eq_some_iff.mpr ⟨c, cs ++ more, rfl, hstart, rfl⟩, Nat.succ_pos _⟩
  | operator =>
    obtain ⟨op, hmem, rfl⟩ := List.mem_map.mp h
    exact exists_claim?_operator hin hmem hv
  | punctuation => exact exists_singleClaim? (mem_spellings_punctuation.mp h) hv
  | delimiter => exact exists_singleClaim? (mem_spellings_delimiter.mp h) hv
  | whitespace =>
    obtain ⟨more, rfl⟩ := hv
    refine ⟨_, rfl, ?_⟩
    show 0 < runLength isBlank (v ++ more)
    rw [runLength_append h.2]
    omega

/-- Where an opening of the category stands, the category takes something. -/
theorem exists_takes_of_opens (hp : p.WellMarked) (hin : p.WithinLines)
    (h : category.Opens p v) (hv : v <+: rest) : ∃ w, w ≠ [] ∧ category.Takes p rest w := by
  obtain ⟨c, hc, hpos⟩ := exists_claim?_of_opens hp hin h hv
  have hne : rest.take c.length ≠ [] := by
    have hle := (sound_claim? hc).length_le
    rw [← List.length_pos_iff, List.length_take]
    omega
  exact ⟨_, hne, (takes_iff_claim? hp hne).mpr ⟨c, hc, rfl⟩⟩

/-- Where a category takes nothing, none of its openings stands. -/
theorem not_opens_of_untaken (hp : p.WellMarked) (hin : p.WithinLines)
    (h : ∀ w, category.Takes p rest w → w = []) (hv : v <+: rest) : ¬ category.Opens p v := by
  intro hopens
  obtain ⟨w, hne, htakes⟩ := exists_takes_of_opens hp hin hopens hv
  exact hne (h w htakes)

end Category

end PolyLex.Scan
