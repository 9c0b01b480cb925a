import PolyLex.Proofs.Json.Nested

/-!
# The first and the last character of a document

A value starts with a quote, a bracket, a sign, a digit or the letter of a word, and it ends with a
quote, a bracket, a digit or the letter of a word (`isValueStart`, `isValueEnd`). Only gaps stand
around it, so a document hardly ever runs into the text that it stands in (`exists_ends_of_parse`).

Where a reader stops is said by the character before the rest (`EndsBefore`). For arrays and objects
that is their own bracket, so nothing has to be known of the values inside but that their readers
leave an ending of the text.
-/

namespace PolyLex.Json

open Text

/-- Can a value start with the character? -/
def isValueStart (c : Char) : Bool :=
  c == '"' || c == '[' || c == '\x7b' || c == '-' || isDigit c || c == 'n' || c == 't' || c == 'f'

/-- Can a value end with the character? -/
def isValueEnd (c : Char) : Bool :=
  c == '"' || c == ']' || c == '\x7d' || isDigit c || c == 'l' || c == 'e'

/-- The rest is an ending of the text, and a character of the class stands before it. -/
def EndsBefore (q : Char → Bool) (cs rest : List Char) : Prop :=
  ∃ front c, cs = front ++ c :: rest ∧ q c = true

section EndsBefore

variable {q : Char → Bool} {cs mid rest : List Char}

theorem EndsBefore.of_append (h : EndsBefore q mid rest) (front : List Char) :
    EndsBefore q (front ++ mid) rest := by
  obtain ⟨more, c, rfl, hc⟩ := h
  exact ⟨front ++ more, c, (List.append_assoc ..).symm, hc⟩

theorem EndsBefore.cons (h : EndsBefore q cs rest) (c : Char) : EndsBefore q (c :: cs) rest :=
  h.of_append [c]

/-- Where two things are read, the end is that of the second, unless it is empty. -/
theorem EndsBefore.trans (h : EndsBefore q cs mid) (hmore : mid = rest ∨ EndsBefore q mid rest) :
    EndsBefore q cs rest := by
  rcases hmore with rfl | hmore
  · exact h
  · obtain ⟨front, c, rfl, -⟩ := h
    rw [List.append_cons]
    exact hmore.of_append _

/-- A wider class of characters has more texts that end in it. -/
theorem EndsBefore.of_imp {q' : Char → Bool} (h : EndsBefore q cs rest)
    (himp : ∀ c, q c = true → q' c = true) : EndsBefore q' cs rest := by
  obtain ⟨front, c, rfl, hc⟩ := h
  exact ⟨front, c, rfl, himp c hc⟩

end EndsBefore

/-! ### Numbers -/

section Numbers

variable {cs rest : List Char}

/-- Digits that are there end with a digit. -/
theorem endsBefore_takeDigits (h : ¬ (takeDigits cs).1.isEmpty = true) :
    EndsBefore isDigit cs (takeDigits cs).2 := by
  obtain ⟨ds, hcs, hval, hds⟩ := exists_takeDigits cs
  have hne : ds ≠ [] := by
    rintro rfl
    rw [hval] at h
    exact h rfl
  refine ⟨ds.dropLast, ds.getLast hne, ?_, hds _ (List.getLast_mem hne)⟩
  rw [List.append_cons, List.dropLast_concat_getLast hne]
  exact hcs

/-- A fraction ends in a digit, or there is none. -/
theorem endsBefore_readFraction {f : Option (List Nat)} (h : Reads (readFraction cs) f rest) :
    cs = rest ∨ EndsBefore isDigit cs rest := by
  unfold readFraction at h
  split at h
  · next more =>
    dsimp only at h
    split at h
    · simp at h
    · next hne =>
      simp only [reads_ok] at h
      obtain ⟨-, rfl⟩ := h
      exact .inr ((endsBefore_takeDigits hne).cons '.')
  · simp only [reads_ok] at h
    exact .inl h.2

/-- An exponent ends in a digit, or there is none. -/
theorem endsBefore_readExponent {e : Option (Bool × List Nat)}
    (h : Reads (readExponent cs) e rest) : cs = rest ∨ EndsBefore isDigit cs rest := by
  unfold readExponent at h
  split at h
  · next mark more =>
    split at h
    · obtain ⟨sign, hsign, -⟩ := exponentSign_local more
      dsimp only at h
      split at h
      · simp at h
      · next hne =>
        simp only [reads_ok] at h
        obtain ⟨-, rfl⟩ := h
        have hdigits := (endsBefore_takeDigits hne).of_append sign
        rw [← hsign] at hdigits
        exact .inr (hdigits.cons mark)
    · simp only [reads_ok] at h
      exact .inl h.2
  · simp only [reads_ok] at h
    exact .inl h.2

/-- A number ends with a digit. -/
theorem endsBefore_readNumber {strict negative : Bool} {v : Value}
    (h : Reads (readNumber strict negative cs) v rest) : EndsBefore isDigit cs rest := by
  unfold readNumber at h
  dsimp only at h
  split at h
  · simp at h
  · next hne =>
    split at h
    · simp at h
    · obtain ⟨f, r₁, hf, hr₁, h⟩ := h.of_bind
      obtain ⟨e, r₂, he, hr₂, h⟩ := h.of_bind
      simp only at he h
      split at h
      · simp at h
      · simp only [reads_pure] at h
        obtain ⟨-, rfl⟩ := h
        -- The whole digits are there; fraction and exponent end in digits too, if there are any.
        exact ((endsBefore_takeDigits hne).trans (endsBefore_readFraction hf)).trans
          (endsBefore_readExponent he)

end Numbers

/-! ### Arrays and objects -/

section Loops

variable {item : (cs : List Char) → Reading Value cs} {cs rest : List Char}

/-- White space ends before the character that comes next. -/
theorem endsBefore_skipGap {d : Char} (h : skipGap cs = d :: rest) :
    EndsBefore (· == d) cs rest := by
  obtain ⟨gap, rfl, -⟩ := exists_gap h
  exact ⟨gap, d, rfl, beq_self_eq_true d⟩

theorem endsBefore_readMoreItems (hitem : ReadsLocally item) {vs : List Value}
    (h : Reads (readMoreItems item cs) vs rest) : EndsBefore (· == ']') cs rest := by
  -- The induction is on the values: each is read from what the one before has left.
  induction vs generalizing cs with
  | nil =>
    rcases reads_readMoreItems_iff.mp h with ⟨-, hskip⟩ | ⟨_, _, _, _, hvs, -⟩
    · exact endsBefore_skipGap hskip
    · cases hvs
  | cons v more ih =>
    rcases reads_readMoreItems_iff.mp h with ⟨hvs, -⟩ | ⟨_, _, _, _, hvs, hskip, -, hv, hmore⟩
    · cases hvs
    · cases hvs
      obtain ⟨gap, rfl, -⟩ := exists_gap hskip
      obtain ⟨first, rfl, -⟩ := hitem hv
      exact (((ih hmore).of_append first).cons ',').of_append gap

theorem endsBefore_readItems (hitem : ReadsLocally item) {vs : List Value}
    (h : Reads (readItems item cs) vs rest) : EndsBefore (· == ']') cs rest := by
  rcases reads_readItems_iff.mp h with ⟨-, hskip⟩ | ⟨v, mid, more, -, -, hv, hmore⟩
  · exact endsBefore_skipGap hskip
  · obtain ⟨first, rfl, -⟩ := hitem hv
    exact (endsBefore_readMoreItems hitem hmore).of_append first

theorem endsBefore_readMoreMembers (hitem : ReadsLocally item) {ms : List Member}
    (h : Reads (readMoreMembers true item cs) ms rest) : EndsBefore (· == '\x7d') cs rest := by
  induction ms generalizing cs with
  | nil =>
    rcases reads_readMoreMembers_iff.mp h with ⟨-, hskip⟩ | ⟨_, _, _, _, _, hms, -⟩
    · exact endsBefore_skipGap hskip
    · cases hms
  | cons m more ih =>
    rcases reads_readMoreMembers_iff.mp h with
      ⟨hms, -⟩ | ⟨_, _, _, _, _, hms, hskip, hopened, hm, hmore⟩
    · cases hms
    · cases hms
      obtain ⟨gap, rfl, -⟩ := exists_gap hskip
      obtain ⟨gap', rfl, -⟩ := exists_gap hopened
      obtain ⟨first, rfl, -⟩ := readMember_local hitem hm
      exact (((((ih hmore).of_append first).cons '"').of_append gap').cons ',').of_append gap

theorem endsBefore_readMembers (hitem : ReadsLocally item) {ms : List Member}
    (h : Reads (readMembers true item cs) ms rest) : EndsBefore (· == '\x7d') cs rest := by
  rcases reads_readMembers_iff.mp h with ⟨-, hskip⟩ | ⟨opened, m, mid, more, -, hopened, hm, hmore⟩
  · exact endsBefore_skipGap hskip
  · obtain ⟨gap, rfl, -⟩ := exists_gap hopened
    obtain ⟨first, rfl, -⟩ := readMember_local hitem hm
    exact (((endsBefore_readMoreMembers hitem hmore).of_append first).cons '"').of_append gap

end Loops

/-! ### Values and documents -/

theorem isValueEnd_of_isDigit (c : Char) (h : isDigit c = true) : isValueEnd c = true := by
  simp [isValueEnd, h]

/-- A single character may be the end of a value if it is one of the ends. -/
theorem isValueEnd_of_beq {d : Char} (hd : isValueEnd d = true) (c : Char) (h : (c == d) = true) :
    isValueEnd c = true := by
  rwa [eq_of_beq h]

/-- A value starts and ends as values do. -/
theorem endsBefore_readFrom {inner : Option ((cs : List Char) → Reading Value cs)}
    (hinner : ∀ item ∈ inner, ReadsLocally item) {c : Char} {after rest : List Char} {v : Value}
    (h : Reads (readFrom true inner c after) v rest) :
    isValueStart c = true ∧ EndsBefore isValueEnd (c :: after) rest := by
  cases ReadsFrom.of_reads h with
  | text hs =>
    obtain ⟨s, body, -, rfl, -⟩ := readChars_local hs
    exact ⟨by decide, '"' :: body, '"', rfl, by decide⟩
  -- The closing bracket is the last character that is read.
  | array hitem hvs =>
    exact ⟨by decide, ((endsBefore_readItems (hinner _ hitem) hvs).of_imp
      (isValueEnd_of_beq (by decide))).cons '['⟩
  | object hitem hms =>
    exact ⟨by decide, ((endsBefore_readMembers (hinner _ hitem) hms).of_imp
      (isValueEnd_of_beq (by decide))).cons '\x7b'⟩
  | negative hv =>
    exact ⟨by decide, ((endsBefore_readNumber hv).of_imp isValueEnd_of_isDigit).cons '-'⟩
  | number hdigit hv =>
    exact ⟨by simp [isValueStart, hdigit], (endsBefore_readNumber hv).of_imp isValueEnd_of_isDigit⟩
  | word hword hv =>
    obtain ⟨-, rfl, -⟩ := readWord_local hv
    cases hword with
    | null => exact ⟨by decide, ['n', 'u', 'l'], 'l', rfl, by decide⟩
    | true => exact ⟨by decide, ['t', 'r', 'u'], 'e', rfl, by decide⟩
    | false => exact ⟨by decide, ['f', 'a', 'l', 's'], 'e', rfl, by decide⟩

/-- A document is a value between gaps. -/
theorem exists_ends_of_parse {text : String} {v : Value} (h : parse text = .ok v) :
    (∃ gap c after, text.toList = gap ++ c :: after ∧ (∀ d ∈ gap, isGap d = true) ∧
      isValueStart c = true) ∧
    ∃ front c gap, text.toList = front ++ c :: gap ∧ isValueEnd c = true ∧
      ∀ d ∈ gap, isGap d = true := by
  obtain ⟨w, rest, hread, hrest, -⟩ := parse_ok_iff.mp h
  obtain ⟨c, after, hskip, hfrom⟩ := reads_readValue_iff.mp hread
  obtain ⟨gap, hcs, hgap, -⟩ := exists_gap hskip
  obtain ⟨hstart, hends⟩ := endsBefore_readFrom (innerReader_local _) hfrom
  refine ⟨⟨gap, c, after, hcs, hgap, hstart⟩, ?_⟩
  obtain ⟨front, d, hd, hend⟩ := hends.of_append gap
  exact ⟨front, d, rest, hcs.trans hd, hend, List.dropWhile_eq_nil_iff.mp hrest⟩

end PolyLex.Json
