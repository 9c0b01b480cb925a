import PolyLex.Proofs.Text.Marks
import PolyLex.Scan.Close

/-!
# Close markers by position

`closeEnd?` walks a text from its start and jumps over what a backslash escapes. Here its answer is
said without a walk, by looking back from each offset:

    closeEnd?_eq_some_iff : closeEnd? escapes close text = some n ↔
      ∃ i, FirstClose escapes close text i ∧ n = i + close.length
    closeEnd?_eq_none_iff : closeEnd? escapes close text = none ↔
      ∀ i, ¬ ClosesAt escapes close text i

A marker at offset `i` closes a string unless an odd number of backslashes stands directly before
it. Both hold for every marker that is not empty and, in strings, does not itself start with a
backslash (`Searchable`).

The second part cuts the text in two at a line end: looking for the marker line by line finds what
looking through the whole text finds (`FirstClose.append`, `firstClose_line`), since a marker
without line feeds lies within one line and no run of backslashes reaches over a line feed.
-/

namespace PolyLex.Scan

open Text

/-! ### Offsets at which a construct closes -/

/-- The mark stands at offset `i` of the text. -/
def StandsAt (mark text : List Char) (i : Nat) : Prop := mark <+: text.drop i

/-- How many backslashes stand directly before offset `i`. -/
def backslashesBefore (text : List Char) (i : Nat) : Nat :=
  ((text.take i).reverse.takeWhile (· == '\\')).length

/-- A close marker stands at offset `i` and counts: where there are escapes, an even number of
backslashes stands before it. -/
def ClosesAt (escapes : Bool) (close text : List Char) (i : Nat) : Prop :=
  StandsAt close text i ∧ (escapes = true → backslashesBefore text i % 2 = 0)

/-- Offset `i` is the first at which the construct closes. -/
def FirstClose (escapes : Bool) (close text : List Char) (i : Nat) : Prop :=
  ClosesAt escapes close text i ∧ ∀ j < i, ¬ ClosesAt escapes close text j

/-- The close marker can be looked for: it is not empty, and where there are escapes it does not
start with a backslash. -/
def Searchable (escapes : Bool) (close : List Char) : Prop :=
  close ≠ [] ∧ (escapes = true → close.head? ≠ some '\\')

instance (mark text : List Char) (i : Nat) : Decidable (StandsAt mark text i) :=
  inferInstanceAs (Decidable (mark <+: text.drop i))

instance (escapes : Bool) (close text : List Char) (i : Nat) :
    Decidable (ClosesAt escapes close text i) :=
  inferInstanceAs (Decidable (_ ∧ _))

instance (escapes : Bool) (close text : List Char) (i : Nat) :
    Decidable (FirstClose escapes close text i) :=
  inferInstanceAs (Decidable (_ ∧ _))

/-- A text starts with a mark that is a prefix of it. -/
theorem startsWith_iff {lead cs : List Char} : startsWith lead cs = true ↔ lead <+: cs := by
  rw [startsWith, Option.isSome_iff_exists]
  constructor
  · rintro ⟨rest, h⟩
    exact ⟨rest, (after?_eq_some_iff.mp h).symm⟩
  · rintro ⟨rest, h⟩
    exact ⟨rest, after?_eq_some_iff.mpr h.symm⟩

theorem standsAt_zero {mark text : List Char} : StandsAt mark text 0 ↔ mark <+: text := Iff.rfl

theorem standsAt_succ {mark cs : List Char} {c : Char} {i : Nat} :
    StandsAt mark (c :: cs) (i + 1) ↔ StandsAt mark cs i := Iff.rfl

/-- Nothing but the empty mark stands in an empty text. -/
theorem not_standsAt_nil {mark : List Char} (h : mark ≠ []) (i : Nat) : ¬ StandsAt mark [] i := by
  intro hs
  rw [StandsAt, List.drop_nil, List.prefix_nil] at hs
  exact h hs

/-- Where a mark stands, the text has room for it. -/
theorem standsAt_length_le {mark text : List Char} {i : Nat} (hm : mark ≠ [])
    (h : StandsAt mark text i) : i + mark.length ≤ text.length := by
  have hle : mark.length ≤ text.length - i := by simpa using List.IsPrefix.length_le h
  have hpos : 0 < mark.length := List.length_pos_iff.mpr hm
  omega

/-! ### Counting backslashes backwards -/

/-- A character that is no backslash ends the count. -/
theorem backslashesBefore_succ_of_ne {c : Char} (hc : c ≠ '\\') (cs : List Char) (i : Nat) :
    backslashesBefore (c :: cs) (i + 1) = backslashesBefore cs i := by
  rw [backslashesBefore, List.take_succ_cons, List.reverse_cons, List.takeWhile_append]
  split
  · next h => simp [hc, backslashesBefore, h]
  · rfl

/-- A backslash and the character it escapes leave the parity of the count as it is. -/
theorem backslashesBefore_escape (d : Char) (rest : List Char) (i : Nat) :
    backslashesBefore ('\\' :: d :: rest) (i + 2) % 2 = backslashesBefore rest i % 2 := by
  rw [backslashesBefore, List.take_succ_cons, List.take_succ_cons, List.reverse_cons,
    List.reverse_cons, List.append_assoc, List.takeWhile_append]
  split
  · next h =>
    rw [backslashesBefore, h]
    by_cases hd : d = '\\'
    · simp [hd]
    · simp [hd]
  · rfl

/-- Behind a plain character the closes are those of the rest. -/
theorem closesAt_succ {escapes : Bool} {close cs : List Char} {c : Char}
    (hc : ¬ (escapes && c == '\\') = true) (i : Nat) :
    ClosesAt escapes close (c :: cs) (i + 1) ↔ ClosesAt escapes close cs i := by
  unfold ClosesAt
  rw [standsAt_succ]
  refine and_congr_right fun _ => imp_congr_right fun he => ?_
  have hne : c ≠ '\\' := by
    intro h
    exact hc (by simp [he, h])
  rw [backslashesBefore_succ_of_ne hne]

/-- Behind an escaped character the closes are those of the rest. -/
theorem closesAt_escape {close rest : List Char} {d : Char} (i : Nat) :
    ClosesAt true close ('\\' :: d :: rest) (i + 2) ↔ ClosesAt true close rest i := by
  unfold ClosesAt
  rw [standsAt_succ, standsAt_succ, backslashesBefore_escape]

/-- No close marker stands on a backslash. -/
theorem not_closesAt_backslash {close cs : List Char} (h : Searchable true close) :
    ¬ ClosesAt true close ('\\' :: cs) 0 := by
  rintro ⟨hs, -⟩
  obtain ⟨tail, htail⟩ := standsAt_zero.mp hs
  cases close with
  | nil => exact h.1 rfl
  | cons a as =>
    rw [List.cons_append, List.cons.injEq] at htail
    exact h.2 rfl (by rw [htail.1]; rfl)

/-- The character behind a backslash closes nothing. -/
theorem not_closesAt_escaped {close rest : List Char} {d : Char} :
    ¬ ClosesAt true close ('\\' :: d :: rest) 1 := by
  rintro ⟨-, heven⟩
  have := heven rfl
  simp [backslashesBefore] at this

theorem firstClose_zero {escapes : Bool} {close text : List Char}
    (h : ClosesAt escapes close text 0) : FirstClose escapes close text 0 :=
  ⟨h, fun _ hj => absurd hj (Nat.not_lt_zero _)⟩

/-! ### The walk finds the first offset -/

/-- What the search answers is an offset just past a first close marker, and no answer means that
there is none. -/
theorem closeEnd?_spec {escapes : Bool} {close : List Char} (h : Searchable escapes close)
    (text : List Char) :
    match closeEnd? escapes close text with
    | some n => ∃ i, FirstClose escapes close text i ∧ n = i + close.length
    | none => ∀ i, ¬ ClosesAt escapes close text i := by
  -- The induction follows the walk; an escape takes it over two offsets, which close nothing.
  fun_induction closeEnd? escapes close text with
  | case1 =>
    intro i hi
    exact not_standsAt_nil h.1 i hi.1
  | case2 c hc =>
    obtain ⟨rfl, rfl⟩ : escapes = true ∧ c = '\\' := by simpa using hc
    intro i hi
    cases i with
    | zero => exact not_closesAt_backslash h hi
    | succ i => exact not_standsAt_nil h.1 i (standsAt_succ.mp hi.1)
  | case3 c hc d rest ih =>
    obtain ⟨rfl, rfl⟩ : escapes = true ∧ c = '\\' := by simpa using hc
    have hskip : ∀ j < 2, ¬ ClosesAt true close ('\\' :: d :: rest) j := by
      intro j hj
      match j, hj with
      | 0, _ => exact not_closesAt_backslash h
      | 1, _ => exact not_closesAt_escaped
    cases hr : closeEnd? true close rest with
    | none =>
      rw [hr] at ih
      show ∀ i, ¬ ClosesAt true close ('\\' :: d :: rest) i
      intro i hi
      match i, hi with
      | 0, hi => exact hskip 0 (by omega) hi
      | 1, hi => exact hskip 1 (by omega) hi
      | i + 2, hi => exact ih i ((closesAt_escape i).mp hi)
    | some n =>
      rw [hr] at ih
      obtain ⟨i, ⟨hi, hfirst⟩, rfl⟩ := ih
      refine ⟨i + 2, ⟨(closesAt_escape i).mpr hi, fun j hj hcj => ?_⟩, Nat.add_right_comm ..⟩
      match j, hj, hcj with
      | 0, _, hcj => exact hskip 0 (by omega) hcj
      | 1, _, hcj => exact hskip 1 (by omega) hcj
      | j + 2, hj, hcj => exact hfirst j (by omega) ((closesAt_escape j).mp hcj)
  | case4 c cs hc hs =>
    refine ⟨0, firstClose_zero ⟨startsWith_iff.mp hs, fun _ => rfl⟩, by omega⟩
  | case5 c cs hc hs ih =>
    have hzero : ¬ ClosesAt escapes close (c :: cs) 0 := fun hz => hs (startsWith_iff.mpr hz.1)
    cases hr : closeEnd? escapes close cs with
    | none =>
      rw [hr] at ih
      show ∀ i, ¬ ClosesAt escapes close (c :: cs) i
      intro i hi
      cases i with
      | zero => exact hzero hi
      | succ i => exact ih i ((closesAt_succ hc i).mp hi)
    | some n =>
      rw [hr] at ih
      obtain ⟨i, ⟨hi, hfirst⟩, rfl⟩ := ih
      refine ⟨i + 1, ⟨(closesAt_succ hc i).mpr hi, fun j hj hcj => ?_⟩, Nat.add_right_comm ..⟩
      cases j with
      | zero => exact hzero hcj
      | succ j => exact hfirst j (by omega) ((closesAt_succ hc j).mp hcj)

/-- There is one first close. -/
theorem firstClose_unique {escapes : Bool} {close text : List Char} {i j : Nat}
    (hi : FirstClose escapes close text i) (hj : FirstClose escapes close text j) : i = j := by
  rcases Nat.lt_trichotomy i j with hlt | heq | hlt
  · exact absurd hi.1 (hj.2 i hlt)
  · exact heq
  · exact absurd hj.1 (hi.2 j hlt)

/-- The scanner finds the end of the first close. -/
theorem closeEnd?_eq_some_iff {escapes : Bool} {close text : List Char} {n : Nat}
    (h : Searchable escapes close) : closeEnd? escapes close text = some n ↔
      ∃ i, FirstClose escapes close text i ∧ n = i + close.length := by
  have hspec := closeEnd?_spec h text
  constructor
  · intro hn
    rw [hn] at hspec
    exact hspec
  · rintro ⟨i, hi, rfl⟩
    cases hr : closeEnd? escapes close text with
    | none =>
      rw [hr] at hspec
      exact absurd hi.1 (hspec i)
    | some m =>
      rw [hr] at hspec
      obtain ⟨j, hj, rfl⟩ := hspec
      rw [firstClose_unique hi hj]

/-- The scanner finds no end just if there is no close. -/
theorem closeEnd?_eq_none_iff {escapes : Bool} {close text : List Char}
    (h : Searchable escapes close) : closeEnd? escapes close text = none ↔
      ∀ i, ¬ ClosesAt escapes close text i := by
  have hspec := closeEnd?_spec h text
  constructor
  · intro hn
    rw [hn] at hspec
    exact hspec
  · intro hno
    cases hr : closeEnd? escapes close text with
    | none => rfl
    | some m =>
      rw [hr] at hspec
      obtain ⟨j, hj, -⟩ := hspec
      exact absurd hj.1 (hno j)

/-! ### A line and what follows it -/

/-- More text does not change whether a mark that lies before it closes. -/
theorem closesAt_append_of_le {escapes : Bool} {close text : List Char} {i : Nat}
    (h : i + close.length ≤ text.length) (more : List Char) :
    ClosesAt escapes close (text ++ more) i ↔ ClosesAt escapes close text i := by
  have hi : i ≤ text.length := Nat.le_of_add_right_le h
  have hlen : close.length ≤ (text.drop i).length := by
    rw [List.length_drop]
    omega
  unfold ClosesAt StandsAt backslashesBefore
  rw [List.drop_append_of_le_length hi, List.take_append_of_le_length hi, List.prefix_iff_eq_take,
    List.take_append_of_le_length hlen, ← List.prefix_iff_eq_take]

/-- What closes a text closes it whatever follows. -/
theorem FirstClose.append {escapes : Bool} {close text : List Char} {i : Nat}
    (h : FirstClose escapes close text i) (hne : close ≠ []) (more : List Char) :
    FirstClose escapes close (text ++ more) i := by
  have hle := standsAt_length_le hne h.1.1
  refine ⟨(closesAt_append_of_le hle more).mpr h.1, fun j hj hcloses => ?_⟩
  exact h.2 j hj ((closesAt_append_of_le (by omega) more).mp hcloses)

/-- Backslashes are counted back to the end of the line before. -/
theorem backslashesBefore_line {line : List Char} (h : line.getLast? = some '\n')
    (more : List Char) (j : Nat) :
    backslashesBefore (line ++ more) (line.length + j) = backslashesBefore more j := by
  obtain ⟨init, rfl⟩ := List.getLast?_eq_some_iff.mp h
  unfold backslashesBefore
  rw [List.take_length_add_append, List.reverse_append, List.takeWhile_append]
  split
  · next hall => simp [hall]
  · rfl

/-- Behind a line feed, the closes are those of the rest. -/
theorem closesAt_line {escapes : Bool} {close line : List Char} (h : line.getLast? = some '\n')
    (more : List Char) (j : Nat) :
    ClosesAt escapes close (line ++ more) (line.length + j) ↔ ClosesAt escapes close more j := by
  unfold ClosesAt StandsAt
  rw [backslashesBefore_line h, List.drop_length_add_append]

/-- A marker without line feeds does not reach over the end of a line, so it stands in the line or
behind it. -/
theorem le_of_closesAt_line {escapes : Bool} {close line more : List Char} {i : Nat}
    (hlast : line.getLast? = some '\n') (hclose : '\n' ∉ close)
    (hno : ∀ j, ¬ ClosesAt escapes close line j)
    (h : ClosesAt escapes close (line ++ more) i) : line.length ≤ i := by
  apply Decidable.byContradiction
  intro hlt
  obtain ⟨init, rfl⟩ := List.getLast?_eq_some_iff.mp hlast
  rw [List.length_append, List.length_singleton] at hlt
  have hi : i ≤ init.length := by omega
  have hstands := h.1
  rw [StandsAt, List.append_assoc, List.drop_append_of_le_length hi] at hstands
  have hle := (isPrefix_of_not_mem hclose hstands).length_le
  rw [List.length_drop] at hle
  -- The marker ends before the line feed, so it closes the line by itself.
  refine hno i ((closesAt_append_of_le ?_ more).mp h)
  rw [List.length_append, List.length_singleton]
  omega

/-- If a line does not close the construct, the first place that does is looked for behind it. -/
theorem firstClose_line {escapes : Bool} {close line more : List Char} {j : Nat}
    (hlast : line.getLast? = some '\n') (hclose : '\n' ∉ close)
    (hno : ∀ i, ¬ ClosesAt escapes close line i) (h : FirstClose escapes close more j) :
    FirstClose escapes close (line ++ more) (line.length + j) := by
  refine ⟨(closesAt_line hlast more j).mpr h.1, fun i hi hcloses => ?_⟩
  obtain ⟨k, rfl⟩ := Nat.exists_eq_add_of_le (le_of_closesAt_line hlast hclose hno hcloses)
  exact h.2 k (by omega) ((closesAt_line hlast more k).mp hcloses)

/-- Two texts without a close have none when they are joined at a line feed. -/
theorem not_closesAt_line {escapes : Bool} {close line more : List Char}
    (hlast : line.getLast? = some '\n') (hclose : '\n' ∉ close)
    (hno : ∀ i, ¬ ClosesAt escapes close line i) (h : ∀ j, ¬ ClosesAt escapes close more j) (i : Nat) :
    ¬ ClosesAt escapes close (line ++ more) i := by
  intro hcloses
  obtain ⟨k, rfl⟩ := Nat.exists_eq_add_of_le (le_of_closesAt_line hlast hclose hno hcloses)
  exact h k ((closesAt_line hlast more k).mp hcloses)

/-! ### What the search leaves in place -/

/-- What is found ends with the close marker and lies within the text. -/
theorem exists_of_closeEnd?_eq_some {escapes : Bool} {close : List Char} : ∀ {text : List Char}
    {n : Nat}, closeEnd? escapes close text = some n →
      ∃ front back, text = front ++ (close ++ back) ∧ n = front.length + close.length := by
  intro text
  fun_induction closeEnd? escapes close text with
  | case1 => simp
  | case2 => simp
  | case3 c hc d rest ih =>
    intro n hn
    obtain ⟨m, hm, rfl⟩ := Option.map_eq_some_iff.mp hn
    obtain ⟨front, back, rfl, rfl⟩ := ih hm
    exact ⟨c :: d :: front, back, rfl, by simp only [List.length_cons]; omega⟩
  | case4 c cs hc hs =>
    intro n hn
    cases hn
    obtain ⟨back, hback⟩ := startsWith_iff.mp hs
    exact ⟨[], back, hback.symm, by simp⟩
  | case5 c cs hc hs ih =>
    intro n hn
    obtain ⟨m, hm, rfl⟩ := Option.map_eq_some_iff.mp hn
    obtain ⟨front, back, rfl, rfl⟩ := ih hm
    exact ⟨c :: front, back, rfl, by simp only [List.length_cons]; omega⟩

theorem closeEnd?_le {escapes : Bool} {close text : List Char} {n : Nat}
    (h : closeEnd? escapes close text = some n) : n ≤ text.length := by
  obtain ⟨front, back, rfl, rfl⟩ := exists_of_closeEnd?_eq_some h
  simp only [List.length_append]
  omega

/-! ### Lines without their terminator -/

theorem content_isPrefix (cs : List Char) : content cs <+: cs := by
  fun_induction content cs with
  | case1 => exact List.prefix_rfl
  | case2 => exact List.nil_prefix
  | case3 => exact List.nil_prefix
  | case4 => exact List.nil_prefix
  | case5 c cs _ _ _ ih => exact List.cons_prefix_cons.mpr ⟨rfl, ih⟩

theorem take_length_content (cs : List Char) : cs.take (content cs).length = content cs :=
  (List.prefix_iff_eq_take.mp (content_isPrefix cs)).symm

/-- A character that is no terminator belongs to the content of its line. -/
theorem content_cons_of_ne {c : Char} (hn : c ≠ '\n') (hr : c ≠ '\r') (cs : List Char) :
    content (c :: cs) = c :: content cs := by
  rw [content]
  · intro h
    exact absurd h hn
  · intro h
    exact absurd h hr
  · intro h
    exact absurd h hr

end PolyLex.Scan
