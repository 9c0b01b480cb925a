import PolyLex.Proofs.Json.Reading

/-!
# What the reader of a whole value takes

Arrays and objects are loops over readers of values. Each loop is first brought to the form of a
grammar: a success is a close bracket, or one more part and a success behind it
(`reads_readMoreItems_iff` and its companions). From these forms it is seen that a loop looks no
further than the reader of its parts does.

* `ReadsLocally` — a reader takes a text with a visible end, and nothing behind that text matters
  unless a number could go on there; `innerReader_local` says so of values, by induction on the
  depth to which their brackets may be nested;
* `exists_of_parse` — a document is a visible text between gaps, so blanks around it do not matter
  (`parse_trim`) and no mark of byte order stands before it (`avoids_mark_of_parse`).
-/

namespace PolyLex.Json

open Text

/-! ### Gaps -/

theorem isBlank_of_isGap {c : Char} (h : isGap c = true) : isBlank c = true := by
  simp only [isGap, Bool.or_eq_true, beq_iff_eq] at h
  rcases h with ((rfl | rfl) | rfl) | rfl <;> decide

theorem isNumberPart_of_isGap {c : Char} (h : isGap c = true) : isNumberPart c = false := by
  simp only [isGap, Bool.or_eq_true, beq_iff_eq] at h
  rcases h with ((rfl | rfl) | rfl) | rfl <;> decide

/-- A text with something behind its gap. -/
theorem exists_gap {cs after : List Char} {c : Char} (h : skipGap cs = c :: after) :
    ∃ gap, cs = gap ++ c :: after ∧ (∀ d ∈ gap, isGap d = true) ∧
      ∀ more, skipGap (gap ++ c :: more) = c :: more := by
  obtain ⟨gap, hcs, -, hgap, havoids⟩ := exists_dropWhile isGap cs
  change cs = gap ++ skipGap cs at hcs
  change Avoids isGap (skipGap cs) at havoids
  rw [h] at hcs havoids
  exact ⟨gap, hcs, hgap, fun more =>
    dropWhile_append_of_avoids hgap (avoids_cons (havoids c rfl) more)⟩

/-- No number goes on over white space and a mark. -/
theorem avoids_gap_append {gap : List Char} {c : Char} (hgap : ∀ d ∈ gap, isGap d = true)
    (hc : isNumberPart c = false) (more : List Char) : Avoids isNumberPart (gap ++ c :: more) := by
  cases gap with
  | nil => exact avoids_cons hc more
  | cons d gap => exact avoids_cons (isNumberPart_of_isGap (hgap d List.mem_cons_self)) _

/-- A text that ends visibly has something behind its gap. -/
theorem exists_skipGap_append {body : List Char} (h : EndsVisibly body) :
    ∃ c more, ∀ rest, skipGap (body ++ rest) = c :: (more ++ rest) := by
  cases hskip : skipGap body with
  | nil =>
    obtain ⟨c, hc, hvisible⟩ := h
    have hgap := List.dropWhile_eq_nil_iff.mp hskip c (List.mem_of_getLast? hc)
    rw [isBlank_of_isGap hgap] at hvisible
    cases hvisible
  | cons c more =>
    obtain ⟨gap, hbody, -, hread⟩ := exists_gap hskip
    refine ⟨c, more, fun rest => ?_⟩
    rw [hbody, List.append_assoc]
    exact hread (more ++ rest)

/-- A closing bracket behind a gap. -/
theorem exists_close {cs rest : List Char} {d : Char} (hvisible : isBlank d = false)
    (hnumber : isNumberPart d = false) (h : skipGap cs = d :: rest) :
    ∃ body, cs = body ++ rest ∧ EndsVisibly body ∧ Avoids isNumberPart body ∧
      ∀ rest', skipGap (body ++ rest') = d :: rest' := by
  obtain ⟨gap, rfl, hgap, hread⟩ := exists_gap h
  refine ⟨gap ++ [d], by simp, (endsVisibly_singleton hvisible).append_left gap,
    avoids_gap_append hgap hnumber [], fun rest' => ?_⟩
  rw [List.append_assoc]
  exact hread rest'

/-- A text that is not empty and does not begin with a character begins with another one. -/
theorem exists_head_ne {d : Char} {cs : List Char} (hnil : cs ≠ [])
    (hne : ∀ rest, cs ≠ d :: rest) : ∃ c ∈ cs.head?, c ≠ d := by
  cases cs with
  | nil => exact absurd rfl hnil
  | cons c rest =>
    refine ⟨c, rfl, ?_⟩
    rintro rfl
    exact hne rest rfl

/-! ### Readers that take no more than they need -/

/-- The reader takes an opening of the text that ends visibly, and looks at nothing behind it unless
a number could go on there. -/
def ReadsLocally {α : Type} (read : (cs : List Char) → Reading α cs) : Prop :=
  ∀ {cs a rest}, Reads (read cs) a rest → ∃ body, cs = body ++ rest ∧ EndsVisibly body ∧
    ∀ rest', Avoids isNumberPart rest' → Reads (read (body ++ rest')) a rest'

section Loops

variable {item : (cs : List Char) → Reading Value cs} {cs rest : List Char}

/-! ### Arrays -/

/-- Behind an item there is the closing bracket, or a comma and more of them. -/
theorem reads_readMoreItems_iff {vs : List Value} : Reads (readMoreItems item cs) vs rest ↔
    (vs = [] ∧ skipGap cs = ']' :: rest) ∨
    ∃ after v mid more, vs = v :: more ∧ skipGap cs = ',' :: after ∧
      (∃ c ∈ (skipGap after).head?, c ≠ ']') ∧ Reads (item after) v mid ∧
      Reads (readMoreItems item mid) more rest := by
  constructor
  · intro h
    rw [readMoreItems] at h
    split at h
    · simp at h
    · next hskip =>
      simp only [reads_ok] at h
      obtain ⟨rfl, rfl⟩ := h
      exact .inl ⟨rfl, hskip⟩
    · next after hskip =>
      right
      split at h
      · simp at h
      · simp at h
      · next hnil hclose =>
        obtain ⟨v, mid, hv, hr, h⟩ := h.of_bind
        obtain ⟨more, r, hmore, hr, h⟩ := h.of_bind
        simp only [reads_pure] at h hmore
        obtain ⟨rfl, rfl⟩ := h
        exact ⟨after, v, mid, more, rfl, hskip, exists_head_ne hnil hclose, hv, hmore⟩
    · simp at h
  -- For the way back each alternative decides the branches of the reader.
  · rintro (⟨rfl, hskip⟩ | ⟨after, v, mid, more, rfl, hskip, ⟨c, hc, hne⟩, hv, hmore⟩)
    · rw [readMoreItems]
      split
      all_goals simp_all
    · rw [readMoreItems]
      split
      · next h => rw [h] at hskip; cases hskip
      · next h => rw [h] at hskip; cases hskip
      · next after' h =>
        rw [h] at hskip
        cases hskip
        split
        · next h => rw [h] at hc; cases hc
        · next h =>
          rw [h] at hc
          cases hc
          exact absurd rfl hne
        · refine hv.bind fun hr => ?_
          refine hmore.bind fun hr => ?_
          simp
      · next h => exact absurd hskip (h after)

/-- Behind the opening bracket there is the closing one, or an item and more of them. -/
theorem reads_readItems_iff {vs : List Value} : Reads (readItems item cs) vs rest ↔
    (vs = [] ∧ skipGap cs = ']' :: rest) ∨
    ∃ v mid more, vs = v :: more ∧ (∃ c ∈ (skipGap cs).head?, c ≠ ']') ∧
      Reads (item cs) v mid ∧ Reads (readMoreItems item mid) more rest := by
  constructor
  · intro h
    rw [readItems] at h
    split at h
    · simp at h
    · next hskip =>
      simp only [reads_ok] at h
      obtain ⟨rfl, rfl⟩ := h
      exact .inl ⟨rfl, hskip⟩
    · next hnil hclose =>
      right
      obtain ⟨v, mid, hv, hr, h⟩ := h.of_bind
      obtain ⟨more, r, hmore, hr, h⟩ := h.of_bind
      simp only [reads_pure] at h hmore
      obtain ⟨rfl, rfl⟩ := h
      exact ⟨v, mid, more, rfl, exists_head_ne hnil hclose, hv, hmore⟩
  · rintro (⟨rfl, hskip⟩ | ⟨v, mid, more, rfl, ⟨c, hc, hne⟩, hv, hmore⟩)
    · rw [readItems]
      split
      all_goals simp_all
    · rw [readItems]
      split
      · next h => rw [h] at hc; cases hc
      · next h =>
        rw [h] at hc
        cases hc
        exact absurd rfl hne
      · refine hv.bind fun hr => ?_
        refine hmore.bind fun hr => ?_
        simp

/-- How the rest of a list is read does not depend on what follows its bracket. -/
theorem readMoreItems_local (hitem : ReadsLocally item) {vs : List Value}
    (h : Reads (readMoreItems item cs) vs rest) :
    ∃ body, cs = body ++ rest ∧ EndsVisibly body ∧ Avoids isNumberPart body ∧
      ∀ rest', Reads (readMoreItems item (body ++ rest')) vs rest' := by
  induction vs generalizing cs with
  | nil =>
    rcases reads_readMoreItems_iff.mp h with ⟨-, hskip⟩ | ⟨_, _, _, _, hvs, -⟩
    · obtain ⟨body, hcs, hends, havoid, hread⟩ := exists_close (by decide) (by decide) hskip
      exact ⟨body, hcs, hends, havoid, fun rest' =>
        reads_readMoreItems_iff.mpr (.inl ⟨rfl, hread rest'⟩)⟩
    · cases hvs
  | cons v more ih =>
    rcases reads_readMoreItems_iff.mp h with ⟨hvs, -⟩ | ⟨_, _, _, _, hvs, hskip, hne, hv, hmore⟩
    · cases hvs
    · cases hvs
      obtain ⟨gap, rfl, hgap, hread⟩ := exists_gap hskip
      obtain ⟨first, rfl, hends₁, hread₁⟩ := hitem hv
      obtain ⟨others, rfl, hends₂, havoid, hread₂⟩ := ih hmore
      refine ⟨gap ++ ',' :: (first ++ others), by simp,
        ((hends₂.append_left first).cons ',').append_left gap,
        avoids_gap_append hgap (by decide) _, fun rest' => ?_⟩
      obtain ⟨c, _, hfirst⟩ := exists_skipGap_append hends₁
      refine reads_readMoreItems_iff.mpr (.inr
        ⟨first ++ (others ++ rest'), v, others ++ rest', more, rfl, ?_, ?_, ?_, hread₂ rest'⟩)
      · simpa using hread (first ++ (others ++ rest'))
      · -- what stands behind the comma is the item, whatever the rest is
        rw [hfirst] at hne ⊢
        exact hne
      · -- and behind the item stands the loop's own text, which no number goes on with
        exact hread₁ _ (havoid.append fun hnil => absurd hnil hends₂.ne_nil)

/-- How a list is read does not depend on what follows its bracket. -/
theorem readItems_local (hitem : ReadsLocally item) : ReadsLocally (readItems item) := by
  intro cs vs rest h
  rcases reads_readItems_iff.mp h with ⟨rfl, hskip⟩ | ⟨v, mid, more, rfl, hne, hv, hmore⟩
  · obtain ⟨body, hcs, hends, -, hread⟩ := exists_close (by decide) (by decide) hskip
    exact ⟨body, hcs, hends, fun rest' _ => reads_readItems_iff.mpr (.inl ⟨rfl, hread rest'⟩)⟩
  · obtain ⟨first, rfl, hends₁, hread₁⟩ := hitem hv
    obtain ⟨others, rfl, hends₂, havoid, hread₂⟩ := readMoreItems_local hitem hmore
    refine ⟨first ++ others, by simp, hends₂.append_left first, fun rest' _ => ?_⟩
    obtain ⟨c, _, hfirst⟩ := exists_skipGap_append hends₁
    rw [List.append_assoc]
    refine reads_readItems_iff.mpr (.inr ⟨v, others ++ rest', more, rfl, ?_, ?_, hread₂ rest'⟩)
    · rw [hfirst] at hne ⊢
      exact hne
    · exact hread₁ _ (havoid.append fun hnil => absurd hnil hends₂.ne_nil)

/-! ### Objects -/

theorem reads_readMember_iff {strict : Bool} {m : Member} :
    Reads (readMember strict item cs) m rest ↔ ∃ name mid after v,
      Reads (readChars strict cs) name mid ∧ skipGap mid = ':' :: after ∧
      Reads (item after) v rest ∧ m = (name.map String.ofList, v) := by
  constructor
  · intro h
    rw [readMember] at h
    obtain ⟨name, mid, hname, hr, h⟩ := h.of_bind
    dsimp only at h
    split at h
    · simp at h
    · next after hskip =>
      obtain ⟨v, r, hv, hr, h⟩ := h.of_bind
      simp only [reads_pure] at h
      obtain ⟨rfl, rfl⟩ := h
      exact ⟨name, mid, after, v, hname, hskip, hv, rfl⟩
    · simp at h
  · rintro ⟨name, mid, after, v, hname, hskip, hv, rfl⟩
    rw [readMember]
    refine hname.bind fun hr => ?_
    dsimp only
    split
    · next h => rw [h] at hskip; cases hskip
    · next after' h =>
      rw [h] at hskip
      cases hskip
      refine hv.bind fun hr => ?_
      simp
    · next h => exact absurd hskip (h after)

/-- Behind a member there is the closing brace, or a comma and more of them. -/
theorem reads_readMoreMembers_iff {strict : Bool} {ms : List Member} :
    Reads (readMoreMembers strict item cs) ms rest ↔
      (ms = [] ∧ skipGap cs = '\x7d' :: rest) ∨
      ∃ after opened m mid more, ms = m :: more ∧ skipGap cs = ',' :: after ∧
        skipGap after = '"' :: opened ∧ Reads (readMember strict item opened) m mid ∧
        Reads (readMoreMembers strict item mid) more rest := by
  constructor
  · intro h
    rw [readMoreMembers] at h
    split at h
    · simp at h
    · next hskip =>
      simp only [reads_ok] at h
      obtain ⟨rfl, rfl⟩ := h
      exact .inl ⟨rfl, hskip⟩
    · next after hskip =>
      right
      split at h
      · simp at h
      · simp at h
      · next opened hopened =>
        obtain ⟨m, mid, hm, hr, h⟩ := h.of_bind
        obtain ⟨more, r, hmore, hr, h⟩ := h.of_bind
        simp only [reads_pure] at h hmore
        obtain ⟨rfl, rfl⟩ := h
        exact ⟨after, opened, m, mid, more, rfl, hskip, hopened, hm, hmore⟩
      · simp at h
    · simp at h
  -- For the way back each alternative decides the branches of the reader.
  · rintro (⟨rfl, hskip⟩ | ⟨after, opened, m, mid, more, rfl, hskip, hopened, hm, hmore⟩)
    · rw [readMoreMembers]
      split
      all_goals simp_all
    · rw [readMoreMembers]
      split
      · next h => rw [h] at hskip; cases hskip
      · next h => rw [h] at hskip; cases hskip
      · next after' h =>
        rw [h] at hskip
        cases hskip
        split
        · next h => rw [h] at hopened; cases hopened
        · next h => rw [h] at hopened; cases hopened
        · next opened' h =>
          rw [h] at hopened
          cases hopened
          refine hm.bind fun hr => ?_
          refine hmore.bind fun hr => ?_
          simp
        · next h => exact absurd hopened (h opened)
      · next h => exact absurd hskip (h after)

/-- Behind the opening brace there is the closing one, or a member and more of them. -/
theorem reads_readMembers_iff {strict : Bool} {ms : List Member} :
    Reads (readMembers strict item cs) ms rest ↔
      (ms = [] ∧ skipGap cs = '\x7d' :: rest) ∨
      ∃ opened m mid more, ms = m :: more ∧ skipGap cs = '"' :: opened ∧
        Reads (readMember strict item opened) m mid ∧
        Reads (readMoreMembers strict item mid) more rest := by
  constructor
  · intro h
    rw [readMembers] at h
    split at h
    · simp at h
    · next hskip =>
      simp only [reads_ok] at h
      obtain ⟨rfl, rfl⟩ := h
      exact .inl ⟨rfl, hskip⟩
    · next opened hopened =>
      obtain ⟨m, mid, hm, hr, h⟩ := h.of_bind
      obtain ⟨more, r, hmore, hr, h⟩ := h.of_bind
      simp only [reads_pure] at h hmore
      obtain ⟨rfl, rfl⟩ := h
      exact .inr ⟨opened, m, mid, more, rfl, hopened, hm, hmore⟩
    · simp at h
  · rintro (⟨rfl, hskip⟩ | ⟨opened, m, mid, more, rfl, hopened, hm, hmore⟩)
    · rw [readMembers]
      split
      all_goals simp_all
    · rw [readMembers]
      split
      · next h => rw [h] at hopened; cases hopened
      · next h => rw [h] at hopened; cases hopened
      · next opened' h =>
        rw [h] at hopened
        cases hopened
        refine hm.bind fun hr => ?_
        refine hmore.bind fun hr => ?_
        simp
      · next h => exact absurd hopened (h opened)

/-- How a member is read does not depend on what follows it, numbers apart. -/
theorem readMember_local (hitem : ReadsLocally item) : ReadsLocally (readMember true item) := by
  intro cs m rest h
  obtain ⟨name, mid, after, v, hname, hskip, hv, rfl⟩ := reads_readMember_iff.mp h
  obtain ⟨s, chars, -, rfl, hread₁⟩ := readChars_local hname
  obtain ⟨gap, rfl, -, hgap⟩ := exists_gap hskip
  obtain ⟨body, rfl, hends, hread₂⟩ := hitem hv
  refine ⟨chars ++ '"' :: (gap ++ ':' :: body), by simp,
    (((hends.cons ':').append_left gap).cons '"').append_left chars, fun rest' hrest' => ?_⟩
  refine reads_readMember_iff.mpr
    ⟨name, gap ++ ':' :: (body ++ rest'), body ++ rest', v, ?_, hgap _, hread₂ _ hrest', rfl⟩
  rw [show chars ++ '"' :: (gap ++ ':' :: body) ++ rest' =
    chars ++ '"' :: (gap ++ ':' :: (body ++ rest')) by simp]
  exact hread₁ _

/-- How the rest of an object is read does not depend on what follows its brace. -/
theorem readMoreMembers_local (hitem : ReadsLocally item) {ms : List Member}
    (h : Reads (readMoreMembers true item cs) ms rest) :
    ∃ body, cs = body ++ rest ∧ EndsVisibly body ∧ Avoids isNumberPart body ∧
      ∀ rest', Reads (readMoreMembers true item (body ++ rest')) ms rest' := by
  induction ms generalizing cs with
  | nil =>
    rcases reads_readMoreMembers_iff.mp h with ⟨-, hskip⟩ | ⟨_, _, _, _, _, hms, -⟩
    · obtain ⟨body, hcs, hends, havoid, hread⟩ := exists_close (by decide) (by decide) hskip
      exact ⟨body, hcs, hends, havoid, fun rest' =>
        reads_readMoreMembers_iff.mpr (.inl ⟨rfl, hread rest'⟩)⟩
    · cases hms
  | cons m more ih =>
    rcases reads_readMoreMembers_iff.mp h with
      ⟨hms, -⟩ | ⟨_, _, _, _, _, hms, hskip, hopened, hm, hmore⟩
    · cases hms
    · cases hms
      obtain ⟨gap, rfl, hgap, hread⟩ := exists_gap hskip
      obtain ⟨gap', rfl, -, hread'⟩ := exists_gap hopened
      obtain ⟨first, rfl, hends₁, hread₁⟩ := readMember_local hitem hm
      obtain ⟨others, rfl, hends₂, havoid, hread₂⟩ := ih hmore
      refine ⟨gap ++ ',' :: (gap' ++ '"' :: (first ++ others)), by simp,
        ((((hends₂.append_left first).cons '"').append_left gap').cons ',').append_left gap,
        avoids_gap_append hgap (by decide) _, fun rest' => ?_⟩
      -- The parts are read one by one, each with the rest of the text behind it.
      refine reads_readMoreMembers_iff.mpr (.inr ⟨gap' ++ '"' :: (first ++ (others ++ rest')),
        first ++ (others ++ rest'), m, others ++ rest', more, rfl, ?_, hread' _, ?_, hread₂ rest'⟩)
      · simpa using hread (gap' ++ '"' :: (first ++ (others ++ rest')))
      · exact hread₁ _ (havoid.append fun hnil => absurd hnil hends₂.ne_nil)

/-- How an object is read does not depend on what follows its brace. -/
theorem readMembers_local (hitem : ReadsLocally item) : ReadsLocally (readMembers true item) := by
  intro cs ms rest h
  rcases reads_readMembers_iff.mp h with
    ⟨rfl, hskip⟩ | ⟨opened, m, mid, more, rfl, hopened, hm, hmore⟩
  · obtain ⟨body, hcs, hends, -, hread⟩ := exists_close (by decide) (by decide) hskip
    exact ⟨body, hcs, hends, fun rest' _ => reads_readMembers_iff.mpr (.inl ⟨rfl, hread rest'⟩)⟩
  · obtain ⟨gap, rfl, hgap, hread⟩ := exists_gap hopened
    obtain ⟨first, rfl, hends₁, hread₁⟩ := readMember_local hitem hm
    obtain ⟨others, rfl, hends₂, havoid, hread₂⟩ := readMoreMembers_local hitem hmore
    refine ⟨gap ++ '"' :: (first ++ others), by simp,
      ((hends₂.append_left first).cons '"').append_left gap, fun rest' _ => ?_⟩
    refine reads_readMembers_iff.mpr (.inr
      ⟨first ++ (others ++ rest'), m, others ++ rest', more, rfl, ?_, ?_, hread₂ rest'⟩)
    · simpa using hread (first ++ (others ++ rest'))
    · exact hread₁ _ (havoid.append fun hnil => absurd hnil hends₂.ne_nil)

end Loops

/-! ### Values -/

/-- The reader of the values inside a value, where so many brackets may be open. -/
def innerReader (strict : Bool) : Nat → Option ((cs : List Char) → Reading Value cs)
  | 0 => none
  | depth + 1 => some (readValue strict depth)

/-- A value is read from the first character behind white space. -/
theorem reads_readValue_iff {strict : Bool} {depth : Nat} {cs rest : List Char} {v : Value} :
    Reads (readValue strict depth cs) v rest ↔ ∃ c after, skipGap cs = c :: after ∧
      Reads (readFrom strict (innerReader strict depth) c after) v rest := by
  rw [readValue.eq_def]
  dsimp only
  split
  · next hskip =>
    simp [hskip]
  · next c after hskip =>
    rw [reads_widen]
    constructor
    · intro h
      exact ⟨c, after, hskip, h⟩
    · rintro ⟨c', after', hskip', h⟩
      rw [hskip] at hskip'
      cases hskip'
      exact h

/-- The words that are values, cut behind their first letter. -/
inductive IsWord : Char → List Char → Value → Prop
  | null : IsWord 'n' ['u', 'l', 'l'] .null
  | true : IsWord 't' ['r', 'u', 'e'] (.bool true)
  | false : IsWord 'f' ['a', 'l', 's', 'e'] (.bool false)

/-- What a value is, told by its first character. -/
inductive ReadsFrom (strict : Bool) (inner : Option ((cs : List Char) → Reading Value cs)) :
    Char → List Char → Value → List Char → Prop
  | text {after rest : List Char} {s : Option (List Char)} :
      Reads (readChars strict after) s rest →
      ReadsFrom strict inner '"' after (s.elim .unfit (.str ∘ String.ofList)) rest
  | array {item : (cs : List Char) → Reading Value cs} {after rest : List Char} {vs : List Value} :
      item ∈ inner → Reads (readItems item after) vs rest →
      ReadsFrom strict inner '[' after (.arr vs) rest
  | object {item : (cs : List Char) → Reading Value cs} {after rest : List Char}
      {ms : List Member} : item ∈ inner → Reads (readMembers strict item after) ms rest →
      ReadsFrom strict inner '\x7b' after (ofMembers ms) rest
  | negative {after rest : List Char} {v : Value} : Reads (readNumber strict true after) v rest →
      ReadsFrom strict inner '-' after v rest
  | number {c : Char} {after rest : List Char} {v : Value} : isDigit c = true →
      Reads (readNumber strict false (c :: after)) v rest → ReadsFrom strict inner c after v rest
  | word {c : Char} {after word rest : List Char} {value v : Value} : IsWord c word value →
      Reads (readWord value word after) v rest → ReadsFrom strict inner c after v rest

/-- A value that is read is of one of the forms. -/
theorem ReadsFrom.of_reads {strict : Bool} {inner : Option ((cs : List Char) → Reading Value cs)}
    {c : Char} {after rest : List Char} {v : Value}
    (h : Reads (readFrom strict inner c after) v rest) :
    ReadsFrom strict inner c after v rest := by
  unfold readFrom at h
  split at h
  · next hc =>
    subst hc
    obtain ⟨s, r, hs, hr, h⟩ := h.of_bind
    simp only [reads_pure] at h
    obtain ⟨rfl, rfl⟩ := h
    exact .text hs
  · split at h
    · next hc =>
      subst hc
      split at h
      · simp at h
      · next item =>
        obtain ⟨vs, r, hvs, hr, h⟩ := h.of_bind
        simp only [reads_pure] at h
        obtain ⟨rfl, rfl⟩ := h
        exact .array rfl hvs
    · split at h
      · next hc =>
        subst hc
        split at h
        · simp at h
        · next item =>
          obtain ⟨ms, r, hms, hr, h⟩ := h.of_bind
          simp only [reads_pure] at h
          obtain ⟨rfl, rfl⟩ := h
          exact .object rfl hms
      · split at h
        · next hc =>
          subst hc
          exact .negative ((reads_widen ..).mp h)
        · split at h
          -- What is left are the three words.
          · next hdigit => exact .number hdigit h
          · dsimp only at h
            split at h
            · next word value hword =>
              obtain ⟨v', r, hv, hr, h⟩ := h.of_bind
              simp only [reads_pure] at h
              obtain ⟨rfl, rfl⟩ := h
              refine .word ?_ hv
              split at hword
              · next hc =>
                cases hword
                exact hc ▸ .null
              · split at hword
                · next hc =>
                  cases hword
                  exact hc ▸ .true
                · split at hword
                  · next hc =>
                    cases hword
                    exact hc ▸ .false
                  · cases hword
            · simp at h

theorem ReadsFrom.reads {strict : Bool} {inner : Option ((cs : List Char) → Reading Value cs)}
    {c : Char} {after rest : List Char} {v : Value} (h : ReadsFrom strict inner c after v rest) :
    Reads (readFrom strict inner c after) v rest := by
  unfold readFrom
  cases h with
  | text hs => exact hs.bind fun hr => by simp
  | array hitem hvs =>
    cases hitem
    exact hvs.bind fun hr => by simp
  | object hitem hms =>
    cases hitem
    exact hms.bind fun hr => by simp
  | negative hv => exact (reads_widen (Nat.le_succ _) _ v rest).mpr hv
  | number hdigit hv =>
    -- A digit is none of the characters that are tried before it.
    have hne : ∀ d, isDigit d = false → c ≠ d := by
      rintro d hd rfl
      rw [hdigit] at hd
      cases hd
    rw [if_neg (hne '"' (by decide)), if_neg (hne '[' (by decide)),
      if_neg (hne '\x7b' (by decide)), if_neg (hne '-' (by decide)), if_pos hdigit]
    exact hv
  | word hword hv =>
    cases hword <;> exact hv.bind fun hr => by simp

/-- What is read behind the first character of a value, where the readers inside it are local. -/
theorem readFrom_local {inner : Option ((cs : List Char) → Reading Value cs)}
    (hinner : ∀ item ∈ inner, ReadsLocally item) {c : Char} {after rest : List Char} {v : Value}
    (h : Reads (readFrom true inner c after) v rest) :
    ∃ body, after = body ++ rest ∧ isBlank c = false ∧ c ≠ '\uFEFF' ∧ EndsVisibly (c :: body) ∧
      ∀ rest', Avoids isNumberPart rest' →
        Reads (readFrom true inner c (body ++ rest')) v rest' := by
  cases ReadsFrom.of_reads h with
  | text hs =>
    obtain ⟨s, body, rfl, rfl, hread⟩ := readChars_local hs
    refine ⟨body ++ ['"'], by simp, by decide, by decide,
      ((endsVisibly_singleton (by decide)).append_left body).cons '"', fun rest' _ => ?_⟩
    rw [List.append_assoc]
    exact ReadsFrom.reads (.text (hread rest'))
  -- Brackets and braces close themselves, so anything may follow.
  | array hitem hvs =>
    obtain ⟨body, rfl, hends, hread⟩ := readItems_local (hinner _ hitem) hvs
    exact ⟨body, rfl, by decide, by decide, hends.cons '[', fun rest' hrest' =>
      ReadsFrom.reads (.array hitem (hread rest' hrest'))⟩
  | object hitem hms =>
    obtain ⟨body, rfl, hends, hread⟩ := readMembers_local (hinner _ hitem) hms
    exact ⟨body, rfl, by decide, by decide, hends.cons '\x7b', fun rest' hrest' =>
      ReadsFrom.reads (.object hitem (hread rest' hrest'))⟩
  | negative hv =>
    obtain ⟨d, body, rfl, hd, hends, -, hread⟩ := readNumber_local hv
    exact ⟨d :: body, rfl, by decide, by decide, hends.cons '-', fun rest' hrest' =>
      ReadsFrom.reads (.negative (hread rest' hrest'))⟩
  -- A number is the one form that what follows could prolong.
  | number hdigit hv =>
    obtain ⟨d, body, hcs, hd, hends, -, hread⟩ := readNumber_local hv
    cases hcs
    refine ⟨body, rfl, isBlank_of_isDigit hdigit, ?_, hends, fun rest' hrest' =>
      ReadsFrom.reads (.number hdigit (hread rest' hrest'))⟩
    rintro rfl
    cases hdigit
  | word hword hv =>
    obtain ⟨rfl, rfl, hread⟩ := readWord_local hv
    refine ⟨_, rfl, ?_, ?_, ?_, fun rest' _ => ReadsFrom.reads (.word hword (hread rest'))⟩
    · cases hword <;> decide
    · cases hword <;> decide
    · cases hword <;> exact ⟨_, rfl, by decide⟩

/-- What a reader of values takes, where the readers inside it are local: a gap and a visible text
which any other gap may come before. -/
theorem exists_of_reads_readValue {depth : Nat}
    (hinner : ∀ item ∈ innerReader true depth, ReadsLocally item) {cs rest : List Char} {v : Value}
    (h : Reads (readValue true depth cs) v rest) :
    ∃ gap c body, cs = gap ++ (c :: body ++ rest) ∧ (∀ d ∈ gap, isGap d = true) ∧
      isBlank c = false ∧ c ≠ '\uFEFF' ∧ EndsVisibly (c :: body) ∧
      ∀ gap' rest', (∀ d ∈ gap', isGap d = true) → Avoids isNumberPart rest' →
        Reads (readValue true depth (gap' ++ (c :: body ++ rest'))) v rest' := by
  obtain ⟨c, after, hskip, hfrom⟩ := reads_readValue_iff.mp h
  obtain ⟨gap, rfl, hgap, -⟩ := exists_gap hskip
  obtain ⟨body, rfl, hblank, hmark, hends, hread⟩ := readFrom_local hinner hfrom
  refine ⟨gap, c, body, rfl, hgap, hblank, hmark, hends, fun gap' rest' hgap' hrest' => ?_⟩
  -- The value begins where the gap ends, with a character that is no gap.
  have hc : isGap c = false := by
    rw [Bool.eq_false_iff]
    intro hc
    rw [isBlank_of_isGap hc] at hblank
    cases hblank
  exact reads_readValue_iff.mpr ⟨c, body ++ rest',
    dropWhile_append_of_avoids hgap' (avoids_cons hc _), hread rest' hrest'⟩

/-- A value is read locally if those one level deeper are. -/
theorem readsLocally_of_inner {depth : Nat}
    (hinner : ∀ item ∈ innerReader true depth, ReadsLocally item) :
    ReadsLocally (readValue true depth) := by
  intro cs v rest h
  obtain ⟨gap, c, body, rfl, hgap, -, -, hends, hread⟩ := exists_of_reads_readValue hinner h
  refine ⟨gap ++ c :: body, (List.append_assoc ..).symm, hends.append_left gap,
    fun rest' hrest' => ?_⟩
  rw [List.append_assoc]
  exact hread gap rest' hgap hrest'

/-- By induction on the number of brackets that may be open. -/
theorem innerReader_local : ∀ depth, ∀ item ∈ innerReader true depth, ReadsLocally item
  | 0 => by
    rintro _ ⟨⟩
  | depth + 1 => by
    rintro _ ⟨⟩
    exact readsLocally_of_inner (innerReader_local depth)

/-! ### Documents -/

/-- A document is a value with nothing but white space behind it. -/
theorem readDocument_eq_ok_iff {strict : Bool} {depth : Nat} {text : String} {v : Value} :
    readDocument strict depth text = .ok v ↔
      ∃ rest, Reads (readValue strict depth text.toList) v rest ∧ skipGap rest = [] := by
  cases hread : readValue strict depth text.toList with
  | error stop => simp [readDocument, hread]
  | ok x =>
    obtain ⟨w, r⟩ := x
    simp only [readDocument, hread, reads_ok]
    split
    · next hskip =>
      rw [Except.ok.injEq]
      constructor
      · rintro rfl
        exact ⟨r.val, ⟨rfl, rfl⟩, hskip⟩
      · rintro ⟨_, ⟨hv, -⟩, -⟩
        exact hv
    · next hskip =>
      simp only [reduceCtorEq, false_iff]
      rintro ⟨_, ⟨-, rfl⟩, hend⟩
      exact hskip hend

/-- A text parses just if it is a document, and repeated names are settled. -/
theorem parse_ok_iff {text : String} {v : Value} : parse text = .ok v ↔
    ∃ w rest, Reads (readValue true nestingLimit text.toList) w rest ∧ skipGap rest = [] ∧
      w.settled = v := by
  have hdocument : parse text = .ok v ↔
      ∃ w, readDocument true nestingLimit text = .ok w ∧ w.settled = v := by
    rw [parse]
    cases readDocument true nestingLimit text <;> simp [Except.map]
  rw [hdocument]
  simp only [readDocument_eq_ok_iff, exists_and_right, ← and_assoc]

/-- A document is a visible text between gaps, and alone that text is the same document. -/
theorem exists_of_parse {text : String} {v : Value} (h : parse text = .ok v) :
    ∃ front c body back, text.toList = front ++ (c :: body ++ back) ∧
      (∀ d ∈ front, isGap d = true) ∧ (∀ d ∈ back, isGap d = true) ∧
      isBlank c = false ∧ c ≠ '\uFEFF' ∧ EndsVisibly (c :: body) ∧
      parse (String.ofList (c :: body)) = .ok v := by
  obtain ⟨w, rest, hread, hrest, rfl⟩ := parse_ok_iff.mp h
  obtain ⟨front, c, body, hcs, hfront, hblank, hmark, hends, hread⟩ :=
    exists_of_reads_readValue (innerReader_local _) hread
  refine ⟨front, c, body, rest, hcs, hfront, List.dropWhile_eq_nil_iff.mp hrest, hblank, hmark,
    hends, ?_⟩
  refine parse_ok_iff.mpr ⟨w, [], ?_, rfl, rfl⟩
  rw [String.toList_ofList]
  have hread := hread [] [] (by simp) (avoids_nil _)
  rwa [List.append_nil, List.nil_append] at hread

/-- Blanks around a document do not matter. -/
theorem parse_trim {text : String} {v : Value} (h : parse text = .ok v) :
    parse (String.ofList (trimBy isBlank text.toList)) = .ok v := by
  obtain ⟨front, c, body, back, hcs, hfront, hback, hblank, -, hends, hparse⟩ := exists_of_parse h
  rw [hcs, trimBy_append hblank (fun d hd => isBlank_of_isGap (hfront d hd))
    (fun d hd => isBlank_of_isGap (hback d hd)) hends]
  exact hparse

/-- No document starts with a mark of byte order. -/
theorem avoids_mark_of_parse {text : String} {v : Value} (h : parse text = .ok v) :
    Avoids (· == '\uFEFF') text.toList := by
  obtain ⟨front, c, body, back, hcs, hfront, -, -, hmark, -, -⟩ := exists_of_parse h
  rw [hcs]
  cases front with
  | nil => exact avoids_cons (p := (· == '\uFEFF')) (beq_false_of_ne hmark) _
  | cons d front =>
    refine avoids_cons (p := (· == '\uFEFF')) (beq_false_of_ne ?_) _
    rintro rfl
    have hgap := hfront '\uFEFF' List.mem_cons_self
    cases hgap

end PolyLex.Json
