import Mathlib.Data.List.TakeWhile
import PolyLex.Proofs.Text.Classes
import PolyLex.Text.Trim

/-!
# Where texts begin and end

Readers cut an opening of one class of characters off a text, and what they do next is settled by
the character that stands behind it. `Avoids` says that a text does not go on with a class; where it
does not, an opening of that class ends (`takeWhile_append_of_avoids`,
`dropWhile_append_of_avoids`). `EndsVisibly` says that the last character of a text is no blank one,
so that trimming takes nothing off its end (`trimBy_append`); a text without a visible character is
trimmed away (`trimBy_eq_nil_iff`).
-/

namespace PolyLex.Text

/-! ### Openings -/

/-- The text does not go on with a character of the class. -/
def Avoids (p : Char → Bool) (cs : List Char) : Prop := ∀ c ∈ cs.head?, p c = false

theorem avoids_nil (p : Char → Bool) : Avoids p [] := by
  intro c hc
  cases hc

theorem avoids_cons {p : Char → Bool} {c : Char} (h : p c = false) (cs : List Char) :
    Avoids p (c :: cs) := by
  intro d hd
  cases hd
  exact h

theorem Avoids.of_imp {p q : Char → Bool} {cs : List Char} (h : Avoids q cs)
    (himp : ∀ c, p c = true → q c = true) : Avoids p cs := by
  intro c hc
  have hq := h c hc
  cases hp : p c with
  | false => rfl
  | true =>
    rw [himp c hp] at hq
    cases hq

theorem Avoids.append {p : Char → Bool} {front cs : List Char} (hfront : Avoids p front)
    (h : front = [] → Avoids p cs) : Avoids p (front ++ cs) := by
  cases front with
  | nil => exact h rfl
  | cons c front => exact avoids_cons (hfront c rfl) _

/-- What is left when a class of characters has been dropped does not go on with it. -/
theorem exists_dropWhile (p : Char → Bool) (cs : List Char) : ∃ front,
    cs = front ++ cs.dropWhile p ∧ cs.takeWhile p = front ∧ (∀ c ∈ front, p c = true) ∧
      Avoids p (cs.dropWhile p) := by
  refine ⟨_, List.takeWhile_append_dropWhile.symm, rfl,
    List.all_eq_true.mp List.all_takeWhile, ?_⟩
  intro c hc
  have hhead := List.head?_dropWhile_not p cs
  rw [Option.mem_def.mp hc] at hhead
  simpa using hhead

/-- A run ends where a text that avoids its characters begins. -/
theorem takeWhile_append_of_avoids {p : Char → Bool} {front more : List Char}
    (hfront : ∀ c ∈ front, p c = true) (hmore : Avoids p more) :
    (front ++ more).takeWhile p = front := by
  rw [List.takeWhile_append_of_pos hfront]
  cases more with
  | nil => simp
  | cons c more =>
    have hc : p c = false := hmore c rfl
    simp [hc]

/-- What is taken ends before the first item that fails. -/
theorem takeWhile_append_cons_of_neg {α : Type} {p : α → Bool} {x : α} (hx : p x = false)
    (front back : List α) : (front ++ x :: back).takeWhile p = front.takeWhile p := by
  induction front with
  | nil => simp [hx]
  | cons y front ih => rw [List.cons_append, List.takeWhile_cons, List.takeWhile_cons, ih]

theorem dropWhile_of_avoids {p : Char → Bool} {cs : List Char} (h : Avoids p cs) :
    cs.dropWhile p = cs := by
  cases cs with
  | nil => rfl
  | cons c cs =>
    have hc : p c = false := h c rfl
    simp [hc]

/-- Behind a run stands the text that avoids its characters. -/
theorem dropWhile_append_of_avoids {p : Char → Bool} {front more : List Char}
    (hfront : ∀ c ∈ front, p c = true) (hmore : Avoids p more) :
    (front ++ more).dropWhile p = more := by
  rw [List.dropWhile_append_of_pos hfront, dropWhile_of_avoids hmore]

theorem dropWhile_append_avoids {p : Char → Bool} {more : List Char} (h : Avoids p more)
    (front : List Char) : (front ++ more).dropWhile p = front.dropWhile p ++ more := by
  rw [List.dropWhile_append]
  split
  · next hempty => rw [List.isEmpty_iff.mp hempty, dropWhile_of_avoids h, List.nil_append]
  · rfl

/-! ### Dropped ends -/

section DropEnd

variable {p : Char → Bool}

/-- What is dropped from the end can be dropped in parts. -/
theorem dropEndWhile_append_of_all {back : List Char} (h : ∀ c ∈ back, p c = true)
    (cs : List Char) : dropEndWhile p (cs ++ back) = dropEndWhile p cs := by
  rw [dropEndWhile, List.reverse_append, List.dropWhile_append_of_pos (by simpa using h)]
  rfl

/-- Nothing is dropped from a text whose last character stays. -/
theorem dropEndWhile_of_getLast? {cs : List Char} (h : ∀ c ∈ cs.getLast?, p c = false) :
    dropEndWhile p cs = cs := by
  have hend : Avoids p cs.reverse := by
    rwa [Avoids, List.head?_reverse]
  rw [dropEndWhile, dropWhile_of_avoids hend, List.reverse_reverse]

/-- A text is what is left when its end has been dropped, and that end. -/
theorem exists_dropEndWhile (p : Char → Bool) (cs : List Char) :
    ∃ back, cs = dropEndWhile p cs ++ back ∧ (∀ c ∈ back, p c = true) ∧
      ∀ c ∈ (dropEndWhile p cs).getLast?, p c = false := by
  obtain ⟨front, hcs, -, hfront, havoids⟩ := exists_dropWhile p cs.reverse
  refine ⟨front.reverse, ?_, by simpa using hfront, ?_⟩
  · rw [dropEndWhile, ← List.reverse_append, ← hcs, List.reverse_reverse]
  · rwa [dropEndWhile, List.getLast?_reverse]

/-- Nothing is dropped before a character that stays. -/
theorem dropEndWhile_append_cons {c : Char} (hc : p c = false) (front back : List Char) :
    dropEndWhile p (front ++ c :: back) = front ++ c :: dropEndWhile p back := by
  rw [dropEndWhile, List.reverse_append, List.reverse_cons, List.append_assoc,
    List.singleton_append, dropWhile_append_avoids (avoids_cons hc _)]
  simp [dropEndWhile]

end DropEnd

/-! ### Visible ends -/

/-- The text ends with a character that is not blank. -/
def EndsVisibly (cs : List Char) : Prop := ∃ c ∈ cs.getLast?, isBlank c = false

theorem EndsVisibly.append_left {cs : List Char} (h : EndsVisibly cs) (front : List Char) :
    EndsVisibly (front ++ cs) := by
  obtain ⟨c, hc, hvisible⟩ := h
  refine ⟨c, ?_, hvisible⟩
  rw [Option.mem_def] at hc ⊢
  rw [List.getLast?_append, hc, Option.some_or]

theorem EndsVisibly.cons {cs : List Char} (h : EndsVisibly cs) (c : Char) : EndsVisibly (c :: cs) :=
  h.append_left [c]

theorem endsVisibly_singleton {c : Char} (h : isBlank c = false) : EndsVisibly [c] := ⟨c, rfl, h⟩

theorem EndsVisibly.ne_nil {cs : List Char} (h : EndsVisibly cs) : cs ≠ [] := by
  rintro rfl
  obtain ⟨c, hc, -⟩ := h
  cases hc

theorem endsVisibly_digits {ds : List Char} (hne : ds ≠ []) (h : ∀ c ∈ ds, isDigit c = true) :
    EndsVisibly ds :=
  ⟨ds.getLast hne, List.getLast?_eq_some_getLast hne,
    isBlank_of_isDigit (h _ (List.getLast_mem hne))⟩

/-! ### Trimming -/

/-- Only a visible text is left when blanks around it are trimmed. -/
theorem trimBy_append {front core back : List Char} {c : Char} (hc : isBlank c = false)
    (hfront : ∀ d ∈ front, isBlank d = true) (hback : ∀ d ∈ back, isBlank d = true)
    (hends : EndsVisibly (c :: core)) :
    trimBy isBlank (front ++ (c :: core ++ back)) = c :: core := by
  have hopen : Avoids isBlank (c :: core ++ back) := avoids_cons hc _
  have hend : Avoids isBlank (c :: core).reverse := by
    obtain ⟨d, hd, hvisible⟩ := hends
    intro e he
    rw [List.head?_reverse, hd] at he
    cases he
    exact hvisible
  rw [trimBy, dropWhile_append_of_avoids hfront hopen, dropEndWhile,
    List.reverse_append, dropWhile_append_of_avoids (by simpa using hback) hend,
    List.reverse_reverse]

/-- Nothing is left of a text exactly if all of it is trimmed. -/
theorem trimBy_eq_nil_iff {p : Char → Bool} {cs : List Char} :
    trimBy p cs = [] ↔ ∀ c ∈ cs, p c = true := by
  rw [trimBy, dropEndWhile, List.reverse_eq_nil_iff, List.dropWhile_eq_nil_iff]
  constructor
  · intro hall
    obtain ⟨front, hcs, -, hfront, havoids⟩ := exists_dropWhile p cs
    cases hrest : cs.dropWhile p with
    | nil => exact List.dropWhile_eq_nil_iff.mp hrest
    | cons c rest =>
      rw [hrest] at hall havoids
      have hc := hall c (List.mem_reverse.mpr List.mem_cons_self)
      rw [havoids c rfl] at hc
      cases hc
  · intro hall c hc
    exact hall c ((List.dropWhile_suffix p).subset (List.mem_reverse.mp hc))

end PolyLex.Text
